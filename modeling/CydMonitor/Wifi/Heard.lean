import CydMonitor.Wifi.Gate
import Mathlib.Data.List.DropRight

/-!
# What a provider connection is heard to say

The bytes that a connection received decide what becomes of each of its lines, which is what the
server's log has of it, and until when the connection lasts.
-/

namespace CydMonitor.Wifi

open GuardedRun Trace
open LineReader (Holds)
open Text (byte)

/-- The bytes of the line that has not ended. -/
def unfinished (bytes : List UInt8) : List UInt8 := bytes.rtakeWhile (· ≠ byte '\n')

/-- What comes with a byte after those of an unfinished line: the line that it ends, or (`none`) one
that it makes too long. -/
def arrival (cur : List UInt8) (b : UInt8) : Option (Option (List UInt8)) :=
  if b = byte '\n' then
    if cur ≠ [] ∧ cur.length ≤ kMaxLineBytes then some (some cur) else none
  else if cur.length = kMaxLineBytes then some none
  else none

/-- Sequence numbers above all, and a time below none, of the messages before. -/
def InOrder (ms : List ProviderMessage) (m : ProviderMessage) : Prop :=
  (∀ n ∈ ms.filterMap ProviderMessage.seq?, ∀ s ∈ m.seq?, n < s) ∧
    ∀ t ∈ ms.filterMap ProviderMessage.tMs?, ∀ u ∈ m.tMs?, t ≤ u

instance (ms : List ProviderMessage) (m : ProviderMessage) : Decidable (InOrder ms m) :=
  inferInstanceAs (Decidable (_ ∧ _))

/-- What becomes of a message. -/
def messageFate (past : List (Fate × ℕ)) (m : ProviderMessage) (i : Incoming) : Fate :=
  if m.isHello = (appliedIn past).any (·.isHello) then .misplaced
  else if ¬InOrder (appliedIn past) m then .outOfOrder
  else .applied m i.acknowledged i.nowMs

/-- What becomes of a line that is parsed. -/
def parsedFate (past : List (Fate × ℕ)) (line : List UInt8) (i : Incoming) : Fate :=
  match parseProviderMessage line with
  | .ok m => messageFate past m i
  | .error .badVersion => .unsupported
  | .error _ => .malformed

/-- What becomes of a line, given those before it. -/
def fateOf (past : List (Fate × ℕ)) (i : Incoming) : Option (List UInt8) → Fate
  | none => .oversized
  | some line =>
    if maxMessagesPerSecond ≤ (parsedIn past).countP fun u => i.atNs < u + second then .rateLimited
    else parsedFate past line i

/-- The bytes of a connection that were handled, and its lines. -/
structure Heard where
  bytes : List UInt8 := []
  past : List (Fate × ℕ) := []

/-- Nothing is heard after the line that ends the connection. -/
def Heard.next (h : Heard) (i : Incoming) : Heard :=
  if Ended h.past then h
  else
    { bytes := h.bytes ++ [i.byte]
      past := h.past ++ ((arrival (unfinished h.bytes) i.byte).map fun line =>
        (fateOf h.past i line, i.atNs)).toList }

def heard (received : List Incoming) : Heard := received.foldl Heard.next {}

/-- The connections that were accepted, and what the `k`th received. -/
def receives (k : ℕ) (acc : ℕ × List Incoming) : ServerAction → ℕ × List Incoming
  | .accept true true => (acc.1 + 1, acc.2)
  | .read bytes => (acc.1, if acc.1 = k then acc.2 ++ bytes else acc.2)
  | .accept .. | .hangUp | .stop => acc

def accepted (actions : List ServerAction) : ℕ := (actions.foldl (receives 0) (0, [])).1

def receivedOn (k : ℕ) (actions : List ServerAction) : List Incoming :=
  (actions.foldl (receives k) (0, [])).2

def ServerAction.Keeps (a : ServerAction) : Prop := a ≠ .hangUp ∧ a ≠ .stop

/-- The connection that was accepted last is still there: the provider did not hang up, the server
was not stopped, and no line ended it. -/
def Stands (actions : List ServerAction) : Prop :=
  Since (· = .accept true true) ServerAction.Keeps actions ∧
    ¬Ended (heard (receivedOn (accepted actions) actions)).past

/-- What the log says after a run. -/
structure GateKept (actions : List ServerAction) (s : ContextServer) : Prop where
  /-- Every line that the received bytes make has its fate, and there are no others. -/
  received : ∀ k, linesOn k s.log = (heard (receivedOn k actions)).past
  tracker : s.tracker = TrackerCall.replay (s.log.filterMap ServerEvent.call?)
  current : (s.log.map ServerEvent.connection).Pairwise (· ≤ ·) ∧
    ∀ e ∈ s.log, e.connection ≤ accepted actions
  disciplined : ∀ k, Disciplined (appliedIn (linesOn k s.log))
  rate : ∀ k, RateKept (parsedIn (linesOn k s.log))
  unapplied : ∀ (conn : ServedConnection) (i : Incoming) (fate : Fate),
    (conn.feed s.tracker s.stats i).fate = some fate → fate.isApplied = false →
    (conn.feed s.tracker s.stats i).tracker = s.tracker
  stands : s.current.isSome = true ↔ Stands actions
  connected : s.tracker.connected = true ↔ Stands actions ∧
    (appliedIn (heard (receivedOn (accepted actions) actions)).past).any (·.isHello) = true
  closes : ClosesItself s.log

section Fates

variable {conn : ServedConnection} {tracker : ContextTracker} {stats : Stats} {i : Incoming}
  {past : List (Fate × ℕ)}

/-- What a connection remembers tells the order. -/
theorem Remembers.ordered_iff {c : Connection} {ms : List ProviderMessage} (h : Remembers c ms)
    (m : ProviderMessage) : c.ordered m = true ↔ InOrder ms m := by
  refine ⟨h.lt_of_ordered, fun hinOrder => ?_⟩
  have hfollows (s : ℕ) (hs : s ∈ m.seq?) : c.follows s = true := by
    rw [Connection.follows]
    cases hlast : c.lastSeq with
    | none => rfl
    | some last => exact decide_eq_true (hinOrder.1 last (h.lastSeq last hlast) s hs)
  cases m with
  | hello provider version => rfl
  | permissionStatus seq status => exact hfollows seq rfl
  | context seq tMs ageMs context =>
    refine (Bool.and_eq_true _ _).mpr ⟨hfollows seq rfl, decide_eq_true ?_⟩
    rcases h.lastTMs with hzero | hlast
    · rw [hzero]
      exact Nat.zero_le tMs
    · exact hinOrder.2 c.lastTMs hlast tMs rfl

theorem Remembers.greeted_iff {c : Connection} {ms : List ProviderMessage} (h : Remembers c ms) :
    c.helloSeen = ms.any (·.isHello) := by
  cases hseen : c.helloSeen with
  | false =>
    rw [h.silent hseen]
    rfl
  | true =>
    obtain ⟨provider, version, rest, rfl, -⟩ := h.disciplined.hello.resolve_left (h.greeted hseen)
    rfl

theorem badLine_fate (fate : Fate) : (conn.badLine tracker stats fate).fate = some fate := by
  rw [ServedConnection.badLine]
  split_ifs <;> rfl

theorem dispatch_fate (h : Remembers conn.order (appliedIn past)) (m : ProviderMessage) :
    (conn.dispatch tracker stats m i).fate = some (messageFate past m i) := by
  rw [ServedConnection.dispatch, messageFate, ← h.greeted_iff]
  by_cases hturn : m.isHello = conn.order.helloSeen
  · rw [if_pos hturn, if_pos (by simp [hturn])]
    exact badLine_fate _
  · rw [if_neg hturn, if_neg (by simpa using hturn)]
    by_cases hordered : conn.order.ordered m = true
    · rw [if_neg (by simp [hordered]), if_neg (not_not.mpr ((h.ordered_iff m).mp hordered))]
      cases m <;> rfl
    · rw [if_pos (by simpa using hordered), if_pos fun hin => hordered ((h.ordered_iff m).mpr hin)]
      exact badLine_fate _

theorem badLine_order (fate : Fate) :
    (conn.badLine tracker stats fate).conn.order = conn.order := by
  rw [ServedConnection.badLine]
  split_ifs <;> rfl

/-- The order checks that a session's messages pass are those of the server. -/
theorem dispatch_receive (m : ProviderMessage) :
    ((conn.dispatch tracker stats m i).fate = some (.applied m i.acknowledged i.nowMs) ↔
      (conn.order.receive m).isSome) ∧
    (conn.dispatch tracker stats m i).conn.order = (conn.order.receive m).getD conn.order := by
  rw [ServedConnection.dispatch]
  by_cases hturn : m.isHello = conn.order.helloSeen
  · have hnone : conn.order.receive m = none := by
      cases m <;> simp_all [Connection.receive, ProviderMessage.isHello]
    rw [if_pos (by simp [hturn]), badLine_order, badLine_fate, hnone]
    simp
  · rw [if_neg (by simpa using hturn)]
    by_cases hordered : conn.order.ordered m = true
    · rw [if_neg (by simp [hordered])]
      cases m <;>
        simp_all [ServedConnection.apply, Connection.receive, Connection.ordered,
          ProviderMessage.isHello]
    · have hnone : conn.order.receive m = none := by
        cases m <;>
          simp_all [Connection.receive, Connection.ordered, ProviderMessage.isHello]
      rw [if_pos (by simpa using hordered), badLine_order, badLine_fate, hnone]
      simp

theorem parseLine_fate (h : Remembers conn.order (appliedIn past)) (line : List UInt8) :
    (conn.parseLine tracker stats line i).fate = some (parsedFate past line i) := by
  rw [ServedConnection.parseLine, parsedFate]
  cases parseProviderMessage line with
  | ok m => exact dispatch_fate h m
  | error e =>
    cases e with
    | badVersion => rfl
    | _ => exact badLine_fate _

/-- The queue has the lines of the last second. -/
theorem length_recent {recent old times : List ℕ} {atNs : ℕ} (htimes : times = old ++ recent)
    (hold : ∀ u ∈ old, u + second ≤ atNs) (hsorted : times.Pairwise (· ≤ ·)) :
    (recent.dropWhile fun t => decide (second ≤ atNs - t)).length =
      times.countP fun u => decide (atNs < u + second) := by
  have hpositive : 0 < second := by decide
  have hnone : old.countP (fun u => decide (atNs < u + second)) = 0 := by
    rw [List.countP_eq_zero]
    intro u hu
    have hle := hold u hu
    simp only [decide_eq_true_eq, not_lt]
    exact hle
  rw [htimes] at hsorted ⊢
  rw [List.countP_append, hnone, Nat.zero_add]
  replace hsorted := (List.pairwise_append.mp hsorted).2.1
  clear htimes hnone hold
  induction recent with
  | nil => rfl
  | cons t recent ih =>
    obtain ⟨hfirst, hrest⟩ := List.pairwise_cons.mp hsorted
    by_cases hold : second ≤ atNs - t
    · have hlow : ¬atNs < t + second := by omega
      rw [List.dropWhile_cons, if_pos (decide_eq_true hold), ih hrest,
        List.countP_cons_of_neg (by simpa using hlow)]
    · rw [List.dropWhile_cons, if_neg (by simpa using hold), eq_comm, List.countP_eq_length]
      intro u hu
      rw [decide_eq_true_eq]
      rcases List.mem_cons.mp hu with rfl | hu
      · omega
      · have hle := hfirst u hu
        omega

theorem handleLine_fate {clockNs : ℕ} (h : Serves conn past clockNs) (hclock : clockNs ≤ i.atNs)
    (line : List UInt8) :
    (conn.handleLine tracker stats line i).fate = some (fateOf past i (some line)) := by
  obtain ⟨old, htimes, hold⟩ := h.recent
  rw [ServedConnection.handleLine, fateOf,
    length_recent htimes (fun u hu => (hold u hu).trans hclock) h.sorted.1]
  by_cases hfull : maxMessagesPerSecond ≤ (parsedIn past).countP fun u => i.atNs < u + second
  · rw [if_pos hfull, if_pos hfull]
  · rw [if_neg hfull, if_neg hfull]
    let c : ServedConnection := { conn with
      recent := (conn.recent.dropWhile fun t => decide (second ≤ i.atNs - t)) ++ [i.atNs] }
    have hremembers : Remembers c.order (appliedIn past) := h.remembers
    exact parseLine_fate hremembers line

/-- What a byte comes to. -/
theorem feed_fate {clockNs : ℕ} {cur : List UInt8} (h : Serves conn past clockNs)
    (hclock : clockNs ≤ i.atNs) (hholds : Holds kMaxLineBytes conn.lines cur) :
    (conn.feed tracker stats i).fate = (arrival cur i.byte).map (fateOf past i) := by
  rw [ServedConnection.feed, arrival]
  rcases hpush : conn.lines.push i.byte with ⟨event, lines⟩
  by_cases hnewline : i.byte = byte '\n'
  · have hevent := hholds.newline.1
    rw [← hnewline, hpush] at hevent
    dsimp only at hevent
    rw [if_pos hnewline, hevent]
    by_cases hkept : cur.length ≤ kMaxLineBytes
    · rw [if_pos hkept]
      dsimp only
      by_cases hempty : cur = []
      · rw [if_pos (by rw [hempty]; rfl), if_neg fun hboth => hboth.1 hempty]
        rfl
      · rw [if_neg (by simpa using hempty), if_pos ⟨hempty, hkept⟩]
        have hserves : Serves { conn with lines } past clockNs :=
          ⟨h.remembers, h.bad, h.recent, h.sorted⟩
        exact handleLine_fate hserves hclock cur
    · rw [if_neg hkept, if_neg fun hboth => hkept hboth.2]
      rfl
  · have hevent := (hholds.push hnewline).1
    rw [hpush] at hevent
    dsimp only at hevent
    rw [if_neg hnewline, hevent]
    by_cases hfull : cur.length = kMaxLineBytes
    · rw [if_pos hfull, if_pos hfull]
      exact badLine_fate _
    · rw [if_neg hfull, if_neg hfull]
      rfl

theorem badLine_lines (fate : Fate) :
    (conn.badLine tracker stats fate).conn.lines = conn.lines := by
  rw [ServedConnection.badLine]
  split_ifs <;> rfl

theorem dispatch_lines (m : ProviderMessage) :
    (conn.dispatch tracker stats m i).conn.lines = conn.lines := by
  rw [ServedConnection.dispatch]
  split_ifs
  · exact badLine_lines _
  · exact badLine_lines _
  · cases m <;> rfl

theorem parseLine_lines (line : List UInt8) :
    (conn.parseLine tracker stats line i).conn.lines = conn.lines := by
  rw [ServedConnection.parseLine]
  cases parseProviderMessage line with
  | ok m => exact dispatch_lines m
  | error e =>
    cases e with
    | badVersion => rfl
    | _ => exact badLine_lines _

/-- The handling of a line leaves the reader alone. -/
theorem feed_lines : (conn.feed tracker stats i).conn.lines = (conn.lines.push i.byte).2 := by
  rw [ServedConnection.feed]
  rcases conn.lines.push i.byte with ⟨event, lines⟩
  cases event with
  | overflowed => exact badLine_lines _
  | line line =>
    dsimp only
    split_ifs
    · rfl
    · rw [ServedConnection.handleLine]
      split_ifs
      · rfl
      · exact parseLine_lines line
  | _ => rfl

end Fates

theorem not_ended_nil : ¬Ended [] := by
  rintro ⟨_, hl, -⟩
  cases hl

theorem heard_concat (received : List Incoming) (i : Incoming) :
    heard (received ++ [i]) = (heard received).next i :=
  List.foldl_concat ..

theorem heard_ended {received : List Incoming} (h : Ended (heard received).past)
    (rest : List Incoming) : heard (received ++ rest) = heard received := by
  induction rest using List.reverseRecOn with
  | nil => rw [List.append_nil]
  | append_singleton rest i ih =>
    rw [← List.append_assoc, heard_concat, ih, Heard.next, if_pos h]

theorem unfinished_concat (bytes : List UInt8) (b : UInt8) :
    unfinished (bytes ++ [b]) = if b = byte '\n' then [] else unfinished bytes ++ [b] := by
  rw [unfinished, List.rtakeWhile_concat]
  by_cases hb : b = byte '\n' <;> simp [hb, unfinished]

theorem holds_concat {r : LineReader} {bytes : List UInt8} {b : UInt8}
    (h : Holds kMaxLineBytes r (unfinished bytes)) :
    Holds kMaxLineBytes (r.push b).2 (unfinished (bytes ++ [b])) := by
  rw [unfinished_concat]
  by_cases hb : b = byte '\n'
  · rw [if_pos hb, hb]
    exact h.newline.2
  · rw [if_neg hb]
    exact (h.push hb).2

theorem ended_of_endsOn {k : ℕ} {log : List ServerEvent} (h : EndsOn k log) :
    Ended (linesOn k log) := by
  obtain ⟨before, fate, atNs, rfl, hends⟩ := h
  refine ⟨(fate, atNs), ?_, hends⟩
  rw [linesOn_line, List.getLast?_concat]
  rfl

theorem endsOn_of_ended {k : ℕ} {log : List ServerEvent} {fate : Fate} {atNs : ℕ}
    (h : Ended (linesOn k (log ++ [.line k fate atNs]))) :
    EndsOn k (log ++ [.line k fate atNs]) := by
  obtain ⟨l, hl, hends⟩ := h
  rw [linesOn_line, List.getLast?_concat] at hl
  obtain rfl := Option.some.inj hl
  exact ⟨log, fate, atNs, rfl, hends⟩

/-- The log has the lines of what the connections received, and the reader has the line that has not
ended. -/
structure Hears (received : ℕ → List Incoming) (s : ContextServer) : Prop where
  lines : ∀ k, linesOn k s.log = (heard (received k)).past
  fresh : ∀ k, s.connections < k → received k = []
  current : ∀ conn ∈ s.current, ¬Ended (heard (received s.connections)).past ∧
    Holds kMaxLineBytes conn.lines (unfinished (heard (received s.connections)).bytes)

section Steps

variable {received : ℕ → List Incoming} {s : ContextServer} {conn : ServedConnection}
  {i : Incoming}

/-- One more byte of the current connection. -/
theorem Hears.feed (h : Hears received s) (hg : Guarded s) (hcurrent : s.current = some conn)
    (hclock : s.clockNs ≤ i.atNs) :
    (∀ k, linesOn k (s.feed conn i).log = (heard
        (Function.update received s.connections (received s.connections ++ [i]) k)).past) ∧
      Holds kMaxLineBytes (conn.feed s.tracker s.stats i).conn.lines
        (unfinished (heard (received s.connections ++ [i])).bytes) ∧
      (Ended (heard (received s.connections ++ [i])).past ↔
        (conn.feed s.tracker s.stats i).verdict = .close) := by
  obtain ⟨hgoing, hholds⟩ := h.current conn hcurrent
  obtain ⟨hserves, -⟩ := hg.current conn hcurrent
  have hfate := @feed_fate conn s.tracker s.stats i _ _ _ hserves hclock hholds
  have hnext : heard (received s.connections ++ [i]) =
      { bytes := (heard (received s.connections)).bytes ++ [i.byte]
        past := (heard (received s.connections)).past ++
          ((conn.feed s.tracker s.stats i).fate.map fun fate => (fate, i.atNs)).toList } := by
    rw [heard_concat, Heard.next, if_neg hgoing, hfate, h.lines, Option.map_map]
    rfl
  have hlines : linesOn s.connections (s.feed conn i).log =
      (heard (received s.connections ++ [i])).past := by
    rw [hnext, ← h.lines]
    cases hnone : (conn.feed s.tracker s.stats i).fate with
    | none => rw [log_feed_silent hnone, Option.map_none, Option.toList_none, List.append_nil]
    | some fate =>
      rw [log_feed_line hnone, linesOn_line]
      rfl
  refine ⟨fun k => ?_, ?_, ?_⟩
  · by_cases hk : k = s.connections
    · rw [hk, Function.update_self]
      exact hlines
    · rw [Function.update_of_ne hk, ← h.lines]
      cases hnone : (conn.feed s.tracker s.stats i).fate with
      | none => rw [log_feed_silent hnone]
      | some fate => rw [log_feed_line hnone, linesOn_of_ne fun heq => hk heq.symm]
  · rw [hnext, feed_lines]
    exact holds_concat hholds
  · have hends := (hg.fed hcurrent hclock).ends s.connections
    rw [← hlines]
    constructor
    · intro hended
      cases hnone : (conn.feed s.tracker s.stats i).fate with
      | none =>
        rw [log_feed_silent hnone, h.lines] at hended
        exact absurd hended hgoing
      | some fate =>
        rw [log_feed_line hnone] at hended hends
        exact (hends.mp (endsOn_of_ended hended)).1
    · exact fun hclose => ended_of_endsOn (hends.mpr ⟨hclose, rfl⟩)

/-- The end of a connection says nothing more of its lines. -/
theorem Hears.close (h : Hears received s) (conn : ServedConnection) (itself : Bool) :
    Hears received (s.close conn itself) := by
  refine ⟨fun k => ?_, h.fresh, nofun⟩
  have hlog : (s.close conn itself).log =
      s.log ++ [.closed s.connections itself conn.order.helloSeen] := rfl
  rw [hlog, linesOn_closed]
  exact h.lines k

theorem Hears.withStats (h : Hears received s) (stats : Stats) : Hears received { s with stats } :=
  ⟨h.lines, h.fresh, h.current⟩

/-- One more byte, with what it does to the connection. -/
theorem Hears.receive (h : Hears received s) (hg : Guarded s) (hcurrent : s.current = some conn)
    (hclock : s.clockNs ≤ i.atNs) :
    Hears (Function.update received s.connections (received s.connections ++ [i]))
        (s.receive conn i) ∧ (s.receive conn i).connections = s.connections ∧
      ((s.receive conn i).current = none →
        Ended (heard (received s.connections ++ [i])).past) := by
  obtain ⟨hlines, hholds, hended⟩ := h.feed hg hcurrent hclock
  have hfresh (k : ℕ) (hk : s.connections < k) :
      Function.update received s.connections (received s.connections ++ [i]) k = [] := by
    rw [Function.update_of_ne (Nat.ne_of_gt hk)]
    exact h.fresh k hk
  rw [ContextServer.receive]
  cases hverdict : (conn.feed s.tracker s.stats i).verdict with
  | keep =>
    rw [hverdict] at hended
    refine ⟨⟨hlines, hfresh, fun c hc => ?_⟩, rfl, fun hnone => by cases hnone⟩
    obtain rfl := Option.some.inj hc
    change ¬Ended (heard (Function.update received s.connections _ s.connections)).past ∧ Holds _ _
      (unfinished (heard (Function.update received s.connections _ s.connections)).bytes)
    rw [Function.update_self]
    exact ⟨fun hends => Verdict.noConfusion (hended.mp hends), hholds⟩
  | close =>
    have hfed : Hears (Function.update received s.connections (received s.connections ++ [i]))
        { s.feed conn i with current := none } :=
      ⟨hlines, hfresh, fun c hc => by cases hc⟩
    exact ⟨hfed.close _ _, rfl, fun _ => hended.mpr hverdict⟩

/-- The bytes of a read, up to the end of the connection. -/
theorem Hears.read {is : List Incoming} (h : Hears received s) (hg : Guarded s)
    (hgone : s.current = none → Ended (heard (received s.connections)).past)
    (hclock : (s.clockNs :: is.map (·.atNs)).Pairwise (· ≤ ·)) :
    Hears (Function.update received s.connections (received s.connections ++ is)) (s.read is) ∧
      (s.read is).connections = s.connections ∧
      ((s.read is).current = none → Ended (heard (received s.connections ++ is)).past) := by
  induction is generalizing s received with
  | nil =>
    rw [List.append_nil, Function.update_eq_self]
    exact ⟨h, rfl, hgone⟩
  | cons i is ih =>
    rw [ContextServer.read]
    cases hcurrent : s.current with
    | none =>
      have hended := heard_ended (hgone hcurrent) (i :: is)
      refine ⟨⟨fun k => ?_, fun k hk => ?_, fun c hc => ?_⟩, rfl, fun _ => ?_⟩
      · by_cases hk : k = s.connections
        · rw [hk, Function.update_self, hended]
          exact h.lines s.connections
        · rw [Function.update_of_ne hk]
          exact h.lines k
      · rw [Function.update_of_ne (Nat.ne_of_gt hk)]
        exact h.fresh k hk
      · rw [hcurrent] at hc
        cases hc
      · rw [hended]
        exact hgone hcurrent
    | some conn =>
      obtain ⟨hfirst, hrest⟩ := List.pairwise_cons.mp hclock
      have hle := hfirst i.atNs (by simp)
      obtain ⟨hguarded, hnow⟩ := hg.receive hcurrent hle
      obtain ⟨hhears, hconnections, hclosed⟩ := h.receive hg hcurrent hle
      have hreceived := @ih _ _ hhears hguarded
      rw [hconnections, Function.update_self, Function.update_idem, List.append_assoc,
        hnow] at hreceived
      exact hreceived hclosed hrest

theorem Hears.closeCurrent (h : Hears received s) : Hears received s.closeCurrent ∧
    s.closeCurrent.connections = s.connections ∧ s.closeCurrent.current = none := by
  rw [ContextServer.closeCurrent]
  cases hcurrent : s.current with
  | none => exact ⟨h, rfl, hcurrent⟩
  | some conn => exact ⟨h.close conn false, rfl, rfl⟩

theorem Hears.replace (h : Hears received s) :
    Hears received s.replace ∧ s.replace.connections = s.connections := by
  rw [ContextServer.replace]
  cases s.current with
  | none => exact ⟨h, rfl⟩
  | some conn => exact ⟨(h.withStats _).close conn false, rfl⟩

theorem Hears.serve (h : Hears received s) : Hears received s.serve := by
  have hlog : s.serve.log = s.log ++ [.opened (s.connections + 1)] := rfl
  refine ⟨fun k => ?_, fun k hk => h.fresh k (Nat.lt_of_succ_lt hk), fun conn hconn => ?_⟩
  · rw [hlog, linesOn_opened]
    exact h.lines k
  · obtain rfl := Option.some.inj hconn
    change ¬Ended (heard (received (s.connections + 1))).past ∧ Holds _ _
      (unfinished (heard (received (s.connections + 1))).bytes)
    rw [h.fresh _ (Nat.lt_succ_self _)]
    exact ⟨not_ended_nil, LineReader.holds_init _⟩

end Steps

section Actions

variable {actions : List ServerAction} {a : ServerAction} {s s' : ContextServer}

theorem accepted_concat : accepted (actions ++ [a]) =
    (receives 0 (accepted actions, receivedOn 0 actions) a).1 :=
  congrArg Prod.fst (List.foldl_concat ..)

theorem receivedOn_concat (k : ℕ) : receivedOn k (actions ++ [a]) =
    (receives k (accepted actions, receivedOn k actions) a).2 := by
  have hsame : (actions.foldl (receives k) (0, [])).1 = accepted actions := by
    induction actions using List.reverseRecOn with
    | nil => rfl
    | append_singleton actions a ih =>
      rw [accepted_concat, List.foldl_concat]
      cases a with
      | accept sameUid prepared => cases sameUid <;> cases prepared <;> simp [receives, ih]
      | _ => exact ih
  rw [receivedOn, List.foldl_concat, ← hsame]
  rfl

theorem not_stands (hnew : a ≠ .accept true true) (hleaves : ¬a.Keeps) : ¬Stands (actions ++ [a]) :=
  fun h => (since_concat.mp h.1).elim hnew fun hkeeps => hleaves hkeeps.2

/-- What an action leaves, of the bytes that were received so far. -/
structure HearsAll (actions : List ServerAction) (s : ContextServer) : Prop where
  hears : Hears (fun k => receivedOn k actions) s
  connections : s.connections = accepted actions
  stands : s.current.isSome = true ↔ Stands actions

theorem HearsAll.init : HearsAll [] .init :=
  { hears := ⟨fun _ => rfl, fun _ _ => rfl, nofun⟩
    connections := rfl
    stands := iff_of_false nofun fun h => since_nil h.1 }

/-- An action that leaves what is received and who is connected as it was. -/
theorem HearsAll.aside (h : HearsAll actions s) (hsame : ∀ k acc, receives k acc a = acc)
    (hkeeps : a.Keeps) (hold : a ≠ .accept true true) (hhears : ∀ received, Hears received s →
      Hears received s') (hconnections : s'.connections = s.connections)
    (hcurrent : s'.current = s.current) : HearsAll (actions ++ [a]) s' := by
  have hreceived (k : ℕ) : receivedOn k (actions ++ [a]) = receivedOn k actions := by
    rw [receivedOn_concat, hsame]
  have haccepted : accepted (actions ++ [a]) = accepted actions := by
    rw [accepted_concat, hsame]
  refine ⟨?_, ?_, ?_⟩
  · simp only [hreceived]
    exact hhears _ h.hears
  · rw [hconnections, haccepted, h.connections]
  · rw [hcurrent, h.stands, Stands, Stands, since_concat, haccepted, hreceived, or_iff_right hold,
      and_iff_left hkeeps]

/-- The end of the connection. -/
theorem HearsAll.ends (h : HearsAll actions s) (hsame : ∀ k acc, receives k acc a = acc)
    (hleaves : ¬a.Keeps) (hold : a ≠ .accept true true) (hhears : Hears
      (fun k => receivedOn k actions) s') (hconnections : s'.connections = s.connections)
    (hnone : s'.current = none) : HearsAll (actions ++ [a]) s' := by
  refine ⟨?_, ?_, ?_⟩
  · simp only [receivedOn_concat, hsame]
    exact hhears
  · rw [hconnections, h.connections, accepted_concat, hsame]
  · rw [hnone]
    exact iff_of_false nofun (not_stands hold hleaves)

theorem HearsAll.accepts (h : HearsAll actions s) (stats : Stats) :
    HearsAll (actions ++ [.accept true true]) { s with stats }.replace.serve := by
  obtain ⟨hreplaced, hconnections⟩ := (h.hears.withStats stats).replace
  have hreceived (k : ℕ) :
      receivedOn k (actions ++ [.accept true true]) = receivedOn k actions := by
    rw [receivedOn_concat]
    rfl
  have haccepted : accepted (actions ++ [.accept true true]) = s.connections + 1 := by
    rw [accepted_concat, h.connections]
    rfl
  have hfirst : receivedOn (s.connections + 1) actions = [] :=
    h.hears.fresh _ (Nat.lt_succ_self _)
  refine ⟨?_, ?_, iff_of_true rfl ⟨since_concat.mpr (Or.inl rfl), ?_⟩⟩
  · simp only [hreceived]
    exact hreplaced.serve
  · rw [haccepted]
    exact congrArg (· + 1) hconnections
  · rw [haccepted, hreceived, hfirst]
    exact not_ended_nil

theorem HearsAll.reads (h : HearsAll actions s) (hg : Guarded s) {bytes : List Incoming}
    (hsome : s.current.isSome = true)
    (hclock : (s.clockNs :: bytes.map (·.atNs)).Pairwise (· ≤ ·)) :
    HearsAll (actions ++ [.read bytes]) (s.read bytes) := by
  have hnone : s.current ≠ none := Option.isSome_iff_ne_none.mp hsome
  obtain ⟨hread, hconnections, hgone⟩ := h.hears.read hg (fun hgone => absurd hgone hnone) hclock
  have hreceived : (fun k => receivedOn k (actions ++ [.read bytes])) = Function.update
      (fun k => receivedOn k actions) s.connections
        (receivedOn s.connections actions ++ bytes) := by
    funext k
    rw [receivedOn_concat, receives, ← h.connections]
    by_cases hk : k = s.connections
    · rw [hk, Function.update_self]
      exact if_pos rfl
    · rw [Function.update_of_ne hk]
      exact if_neg fun heq => hk heq.symm
  have haccepted : accepted (actions ++ [.read bytes]) = s.connections := by
    rw [accepted_concat, h.connections]
    rfl
  have hthis : receivedOn s.connections (actions ++ [.read bytes]) =
      receivedOn s.connections actions ++ bytes := by
    rw [congrFun hreceived s.connections, Function.update_self]
  refine ⟨?_, hconnections.trans haccepted.symm, ?_⟩
  · rw [hreceived]
    exact hread
  rw [Stands, since_concat, haccepted, hthis]
  constructor
  · intro hstill
    obtain ⟨conn, hconn⟩ := Option.isSome_iff_exists.mp hstill
    have hgoing := (hread.current conn hconn).1
    rw [hconnections, Function.update_self] at hgoing
    exact ⟨Or.inr ⟨(h.stands.mp hsome).1, nofun, nofun⟩, hgoing⟩
  · rintro ⟨-, hgoing⟩
    exact Option.isSome_iff_ne_none.mpr fun hclosed => hgoing (hgone hclosed)

theorem HearsAll.step (h : HearsAll actions s) (hg : Guarded s) (hstep : s.step a = some s') :
    HearsAll (actions ++ [a]) s' := by
  obtain ⟨-, hstep⟩ := Option.ite_none_left_eq_some.mp hstep
  cases a with
  | accept sameUid prepared =>
    obtain rfl := Option.some.inj hstep
    rw [ContextServer.accept]
    cases sameUid with
    | false =>
      exact h.aside (fun _ _ => rfl) ⟨by simp, by simp⟩ (by simp)
        (fun _ hhears => hhears.withStats _) rfl rfl
    | true =>
      cases prepared with
      | false =>
        exact h.aside (fun _ _ => rfl) ⟨by simp, by simp⟩ (by simp) (fun _ => id) rfl rfl
      | true => exact h.accepts _
  | read bytes =>
    obtain ⟨⟨hsome, hclock⟩, heq⟩ := Option.ite_none_right_eq_some.mp hstep
    obtain rfl := Option.some.inj heq
    exact h.reads hg hsome hclock
  | hangUp =>
    obtain ⟨-, heq⟩ := Option.ite_none_right_eq_some.mp hstep
    obtain rfl := Option.some.inj heq
    obtain ⟨hclosed, hconnections, hnone⟩ := h.hears.closeCurrent
    exact h.ends (fun _ _ => rfl) (fun hkeeps => hkeeps.1 rfl) (by simp) hclosed hconnections hnone
  | stop =>
    obtain rfl := Option.some.inj hstep
    obtain ⟨hclosed, hconnections, hnone⟩ := h.hears.closeCurrent
    exact h.ends (fun _ _ => rfl) (fun hkeeps => hkeeps.2 rfl) (by simp)
      ⟨hclosed.lines, hclosed.fresh, hclosed.current⟩ hconnections hnone

end Actions

theorem hears_run {actions : List ServerAction} {s : ContextServer}
    (h : run ContextServer.step .init actions = some s) : HearsAll actions s := by
  induction actions using List.reverseRecOn generalizing s with
  | nil =>
    obtain rfl := Option.some.inj h
    exact HearsAll.init
  | append_singleton actions a ih =>
    obtain ⟨v, hv, ha⟩ := run_concat_eq_some h
    exact (ih hv).step (guarded_run hv) ha

/-- The gate holds after every run. -/
theorem gate_kept {actions : List ServerAction} {s : ContextServer}
    (h : run ContextServer.step .init actions = some s) : GateKept actions s := by
  have hguarded := guarded_run h
  have hhears := hears_run h
  have hconnected : s.tracker.connected = true ↔ Stands actions ∧
      (appliedIn (heard (receivedOn (accepted actions) actions)).past).any (·.isHello) = true := by
    rw [hguarded.connected, ← hhears.stands, ← hhears.connections, ← hhears.hears.lines]
    cases hcurrent : s.current with
    | none => exact iff_of_false nofun nofun
    | some conn =>
      have hremembers := (hguarded.current conn hcurrent).1.remembers
      rw [← hremembers.greeted_iff]
      exact (and_iff_right rfl).symm
  exact
    { received := hhears.hears.lines
      tracker := hguarded.tracker
      current := ⟨hguarded.log.numbers, hhears.connections ▸ hguarded.log.last⟩
      disciplined := hguarded.log.disciplined
      rate := hguarded.log.rate
      unapplied := fun conn i fate hfate hunapplied => by
        cases feeds_feed conn s.tracker s.stats i with
        | silent hnone => exact absurd (hnone.symm.trans hfate) nofun
        | line fate' c horder hbad htreats hlimits =>
          obtain rfl := Option.some.inj (htreats.isFate.symm.trans hfate)
          exact (htreats.unapplied hunapplied).1
      stands := hhears.stands
      connected := hconnected
      closes := hguarded.log.closesItself hguarded.settled }

def arriving (line : String) (atNs nowMs : ℕ) : List Incoming :=
  (line.toList ++ ['\n']).map fun c => { byte := byte c, atNs, nowMs, acknowledged := true }

def officeActions : List ServerAction :=
  [.accept true true,
    .read (arriving ("\x7b\"v\":1,\"type\":\"hello\",\"provider\":\"app\"," ++
      "\"provider_version\":\"1\"\x7d") 5 0),
    .accept false true, .accept true true, .read (arriving "hello" 9 2), .stop]

/-- A provider that is heard, and one after it that is not. -/
theorem gate_kept_office :
    ∃ s, run ContextServer.step .init officeActions = some s ∧
      s.connections = 2 ∧ s.stats.malformed = 1 ∧ GateKept officeActions s := by
  have hrun : ((run ContextServer.step .init officeActions).map fun s =>
      (s.connections, s.stats.malformed)) = some (2, 1) := by
    decide +kernel
  obtain ⟨s, hs, hcounts⟩ := Option.map_eq_some_iff.mp hrun
  obtain ⟨hconnections, hmalformed⟩ := Prod.mk.inj hcounts
  exact ⟨s, hs, hconnections, hmalformed, gate_kept hs⟩

end CydMonitor.Wifi
