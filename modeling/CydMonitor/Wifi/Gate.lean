import CydMonitor.Lib.Trace
import CydMonitor.Wifi.Server
import Mathlib.Data.List.Pairwise
import Mathlib.Data.List.TakeWhile

/-!
# The gate of a provider connection

What the log of the server's runs says of itself: which messages reach the tracker, how many lines
are parsed in a second, and when the server closes a connection.
-/

namespace CydMonitor.Wifi

open GuardedRun Trace

def ProviderMessage.seq? : ProviderMessage → Option ℕ
  | .hello .. => none
  | .permissionStatus seq _ => some seq
  | .context seq .. => some seq

def ProviderMessage.tMs? : ProviderMessage → Option ℕ
  | .hello .. | .permissionStatus .. => none
  | .context _ tMs .. => some tMs

/-- What a message does to the tracker. -/
def ProviderMessage.call (nowMs : ℕ) : ProviderMessage → TrackerCall
  | .hello .. => .connected
  | .permissionStatus _ status => .permission status
  | .context _ _ ageMs c => .context c ageMs nowMs

/-- One hello first, rising sequence numbers, and times that do not fall. -/
structure Disciplined (ms : List ProviderMessage) : Prop where
  hello : ms = [] ∨ ∃ provider version rest, ms = .hello provider version :: rest ∧
    ∀ m ∈ rest, m.isHello = false
  seq : (ms.filterMap ProviderMessage.seq?).Pairwise (· < ·)
  tMs : (ms.filterMap ProviderMessage.tMs?).Pairwise (· ≤ ·)

namespace Fate

def isApplied : Fate → Bool
  | .applied .. => true
  | .oversized | .rateLimited | .unsupported | .malformed | .misplaced | .outOfOrder => false

def message? : Fate → Option ProviderMessage
  | .applied message _ _ => some message
  | .oversized | .rateLimited | .unsupported | .malformed | .misplaced | .outOfOrder => none

def isBad : Fate → Bool
  | .oversized | .malformed | .misplaced | .outOfOrder => true
  | .applied .. | .rateLimited | .unsupported => false

def isParsed : Fate → Bool
  | .oversized | .rateLimited => false
  | .applied .. | .unsupported | .malformed | .misplaced | .outOfOrder => true

/-- The count of bad lines in a row after a line. -/
def count (bad : ℕ) : Fate → ℕ
  | .applied .. => 0
  | .oversized | .malformed | .misplaced | .outOfOrder => bad + 1
  | .rateLimited | .unsupported => bad

/-- The lines that end a connection, given the count after them. -/
def Ends (bad : ℕ) : Fate → Prop
  | .applied message acknowledged _ => message.isHello = true ∧ acknowledged = false
  | .oversized | .malformed | .misplaced | .outOfOrder => bad = maxConsecutiveBad
  | .unsupported => True
  | .rateLimited => False

instance (bad : ℕ) (fate : Fate) : Decidable (fate.Ends bad) :=
  match fate with
  | .applied message acknowledged _ =>
    inferInstanceAs (Decidable (message.isHello = true ∧ acknowledged = false))
  | .oversized | .malformed | .misplaced | .outOfOrder =>
    inferInstanceAs (Decidable (bad = maxConsecutiveBad))
  | .unsupported => isTrue trivial
  | .rateLimited => isFalse id

theorem count_lt {fate : Fate} {bad : ℕ} (h : bad < maxConsecutiveBad)
    (hends : ¬ fate.Ends (fate.count bad)) : fate.count bad < maxConsecutiveBad := by
  cases fate with
  | applied message acknowledged nowMs => exact Nat.zero_lt_of_lt h
  | oversized => exact Nat.lt_of_le_of_ne h hends
  | malformed => exact Nat.lt_of_le_of_ne h hends
  | misplaced => exact Nat.lt_of_le_of_ne h hends
  | outOfOrder => exact Nat.lt_of_le_of_ne h hends
  | rateLimited => exact h
  | unsupported => exact h

end Fate

namespace ServerEvent

def connection : ServerEvent → ℕ
  | .opened k | .line k _ _ | .closed k _ _ => k

/-- What the tracker is told. -/
def call? : ServerEvent → Option TrackerCall
  | .line _ (.applied message _ nowMs) _ => some (message.call nowMs)
  | .closed _ _ true => some .disconnected
  | .opened _ | .line .. | .closed .. => none

/-- A line of a connection, and when it was handled. -/
def line? (k : ℕ) : ServerEvent → Option (Fate × ℕ)
  | .line k' fate atNs => if k' = k then some (fate, atNs) else none
  | .opened _ | .closed .. => none

end ServerEvent

open ServerEvent

/-- The messages that were applied of lines. -/
def appliedIn (past : List (Fate × ℕ)) : List ProviderMessage := past.filterMap (·.1.message?)

/-- The times at which lines were parsed. -/
def parsedIn (past : List (Fate × ℕ)) : List ℕ :=
  past.filterMap fun l => if l.1.isParsed then some l.2 else none

/-- The bad lines since the last good one. -/
def badRun (past : List (Fate × ℕ)) : ℕ := runAtEnd (·.1.isBad) (·.1.isApplied) past

/-- The last line ends the connection. -/
def Ended (past : List (Fate × ℕ)) : Prop := ∃ l ∈ past.getLast?, l.1.Ends (badRun past)

instance (past : List (Fate × ℕ)) : Decidable (Ended past) :=
  match h : past.getLast? with
  | none => isFalse fun ⟨_, hl, _⟩ => by rw [h] at hl; cases hl
  | some l =>
    if hends : l.1.Ends (badRun past) then isTrue ⟨l, h, hends⟩
    else isFalse fun ⟨_, hl, hends'⟩ => by
      rw [h] at hl
      cases hl
      exact hends hends'

/-- The lines of a connection. -/
def linesOn (k : ℕ) (log : List ServerEvent) : List (Fate × ℕ) := log.filterMap (line? k)

/-- The last thing that happened is a line that ends the connection. -/
def EndsOn (k : ℕ) (log : List ServerEvent) : Prop :=
  ∃ before fate atNs, log = before ++ [.line k fate atNs] ∧ fate.Ends (badRun (linesOn k log))

/-- At most so many in any second, its end excluded. -/
def RateKept (ts : List ℕ) : Prop :=
  ∀ t, ts.countP (fun u => decide (t ≤ u ∧ u < t + second)) ≤ maxMessagesPerSecond

/-- The server closes a connection of itself right after a line that ends it, and only then. -/
def ClosesItself (log : List ServerEvent) : Prop :=
  ∀ k before after, log = before ++ after →
    (EndsOn k before ↔ ∃ saidHello rest, after = .closed k true saidHello :: rest)

section Lines

/-- A message whose turn it is, with what is remembered before and after it. -/
structure Turn (c : Connection) (m : ProviderMessage) (c' : Connection) : Prop where
  turn : m.isHello ≠ c.helloSeen
  ordered : c.ordered m = true
  seen : c'.helloSeen = true
  seq : c'.lastSeq = m.seq?.orElse fun _ => c.lastSeq
  tMs : c'.lastTMs = m.tMs?.getD c.lastTMs

/-- A line handled after the rate limit. -/
structure Treats (conn : ServedConnection) (tracker : ContextTracker) (h : Handled) (fate : Fate) :
    Prop where
  isFate : h.fate = some fate
  recent : h.conn.recent = conn.recent
  bad : h.conn.consecutiveBad = fate.count conn.consecutiveBad
  verdict : conn.consecutiveBad < maxConsecutiveBad →
    (h.verdict = .close ↔ fate.Ends (fate.count conn.consecutiveBad))
  unapplied : fate.isApplied = false → h.tracker = tracker ∧ h.conn.order = conn.order
  applied : ∀ message acknowledged nowMs, fate = .applied message acknowledged nowMs →
    h.tracker = TrackerCall.apply tracker (message.call nowMs) ∧
      Turn conn.order message h.conn.order

variable (conn : ServedConnection) (tracker : ContextTracker) (stats : Stats)

private theorem treats_badLine {fate : Fate}
    (hfate : fate = .oversized ∨ fate = .malformed ∨ fate = .misplaced ∨ fate = .outOfOrder) :
    Treats conn tracker (conn.badLine tracker stats fate) fate := by
  by_cases hlast : maxConsecutiveBad ≤ conn.consecutiveBad + 1
  · rw [ServedConnection.badLine, if_pos hlast]
    rcases hfate with rfl | rfl | rfl | rfl
    all_goals
      exact ⟨rfl, rfl, rfl, fun hbad =>
        iff_of_true rfl (by simp only [Fate.Ends, Fate.count]; omega),
        fun _ => ⟨rfl, rfl⟩,
        fun _ _ _ heq => by cases heq⟩
  · rw [ServedConnection.badLine, if_neg hlast]
    rcases hfate with rfl | rfl | rfl | rfl
    all_goals
      exact ⟨rfl, rfl, rfl, fun hbad => iff_of_false nofun
        (by simp only [Fate.Ends, Fate.count]; omega), fun _ => ⟨rfl, rfl⟩,
        fun _ _ _ heq => by cases heq⟩

private theorem treats_apply {message : ProviderMessage} (i : Incoming)
    (hturn : message.isHello ≠ conn.order.helloSeen)
    (hordered : conn.order.ordered message = true) :
    Treats conn tracker (conn.apply tracker stats message i)
      (.applied message i.acknowledged i.nowMs) := by
  cases message with
  | hello provider version =>
    refine ⟨rfl, rfl, rfl, fun _ => ?_, (fun hno => by cases hno), fun _ _ _ heq => ?_⟩
    · cases hack : i.acknowledged <;>
        simp [ServedConnection.apply, Fate.Ends, hack, ProviderMessage.isHello]
    · cases heq
      exact ⟨rfl, hturn, hordered, rfl, rfl, rfl⟩
  | permissionStatus seq status =>
    have hseen : conn.order.helloSeen = true := by
      simpa [ProviderMessage.isHello] using hturn
    refine ⟨rfl, rfl, rfl, fun _ =>
      iff_of_false nofun (by simp [Fate.Ends, ProviderMessage.isHello]),
      (fun hno => by cases hno), fun _ _ _ heq => ?_⟩
    cases heq
    exact ⟨rfl, hturn, hordered, hseen, rfl, rfl⟩
  | context seq tMs ageMs context =>
    have hseen : conn.order.helloSeen = true := by
      simpa [ProviderMessage.isHello] using hturn
    refine ⟨rfl, rfl, rfl, fun _ =>
      iff_of_false nofun (by simp [Fate.Ends, ProviderMessage.isHello]),
      (fun hno => by cases hno), fun _ _ _ heq => ?_⟩
    cases heq
    exact ⟨rfl, hturn, hordered, hseen, rfl, rfl⟩

private theorem treats_dispatch (message : ProviderMessage) (i : Incoming) :
    ∃ fate, Treats conn tracker (conn.dispatch tracker stats message i) fate ∧ fate.isParsed := by
  rw [ServedConnection.dispatch]
  by_cases hturn : message.isHello = conn.order.helloSeen
  · rw [if_pos (by simp [hturn])]
    exact ⟨.misplaced, treats_badLine conn tracker _ (by simp), rfl⟩
  · rw [if_neg (by simpa using hturn)]
    by_cases hordered : conn.order.ordered message = true
    · rw [if_neg (by simp [hordered])]
      exact ⟨_, treats_apply conn tracker stats i hturn hordered, rfl⟩
    · rw [if_pos (by simpa using hordered)]
      exact ⟨.outOfOrder, treats_badLine conn tracker _ (by simp), rfl⟩

private theorem treats_parseLine (line : List UInt8) (i : Incoming) :
    ∃ fate, Treats conn tracker (conn.parseLine tracker stats line i) fate ∧ fate.isParsed := by
  rw [ServedConnection.parseLine]
  split
  · exact treats_dispatch conn tracker stats _ i
  · exact ⟨.unsupported, ⟨rfl, rfl, rfl, fun _ => iff_of_true rfl trivial, fun _ => ⟨rfl, rfl⟩,
      fun _ _ _ heq => by cases heq⟩, rfl⟩
  · exact ⟨.malformed, treats_badLine conn tracker _ (by simp), rfl⟩

/-- The queue of times without the ones that are a second old, and with that of a parsed line. -/
def Limits (recent : List ℕ) (fate : Fate) (atNs : ℕ) (after : List ℕ) : Prop :=
  ∃ dropped kept, recent = dropped ++ kept ∧ (∀ u ∈ dropped, u + second ≤ atNs) ∧
    if fate.isParsed then kept.length < maxMessagesPerSecond ∧ after = kept ++ [atNs]
    else after = kept

private theorem second_old_of_mem {recent : List ℕ} {atNs u : ℕ}
    (hu : u ∈ recent.takeWhile fun t => decide (second ≤ atNs - t)) : u + second ≤ atNs := by
  have hold : second ≤ atNs - u := by simpa using List.mem_takeWhile_imp hu
  rw [second] at hold ⊢
  omega

/-- A byte ends no line, or one with a fate. -/
inductive Feeds (order : Connection) (bad : ℕ) (recent : List ℕ) (tracker : ContextTracker)
    (atNs : ℕ) (h : Handled) : Prop
  | silent (hfate : h.fate = none) (hverdict : h.verdict = .keep) (htracker : h.tracker = tracker)
      (horder : h.conn.order = order) (hbad : h.conn.consecutiveBad = bad)
      (hrecent : h.conn.recent = recent)
  | line (fate : Fate) (c : ServedConnection) (horder : c.order = order)
      (hbad : c.consecutiveBad = bad) (htreats : Treats c tracker h fate)
      (hlimits : Limits recent fate atNs h.conn.recent)

private theorem feeds_handleLine (line : List UInt8) (i : Incoming) :
    Feeds conn.order conn.consecutiveBad conn.recent tracker i.atNs
      (conn.handleLine tracker stats line i) := by
  have hsplit := (List.takeWhile_append_dropWhile
    (p := fun t => decide (second ≤ i.atNs - t)) (l := conn.recent)).symm
  rw [ServedConnection.handleLine]
  by_cases hfull : maxMessagesPerSecond ≤
      (conn.recent.dropWhile fun t => decide (second ≤ i.atNs - t)).length
  · rw [if_pos hfull]
    exact .line .rateLimited
      { conn with recent := conn.recent.dropWhile fun t => decide (second ≤ i.atNs - t) } rfl rfl
      ⟨rfl, rfl, rfl, fun _ => iff_of_false nofun id, fun _ => ⟨rfl, rfl⟩,
        fun _ _ _ heq => by cases heq⟩
      ⟨_, _, hsplit, fun u hu => second_old_of_mem hu, rfl⟩
  · rw [if_neg hfull]
    let c : ServedConnection := { conn with
      recent := (conn.recent.dropWhile fun t => decide (second ≤ i.atNs - t)) ++ [i.atNs] }
    obtain ⟨fate, htreats, hparsed⟩ := treats_parseLine c tracker stats line i
    refine .line fate c rfl rfl htreats ⟨_, _, hsplit, fun u hu => second_old_of_mem hu, ?_⟩
    rw [if_pos hparsed]
    exact ⟨Nat.lt_of_not_le hfull, htreats.recent⟩

theorem feeds_feed (i : Incoming) :
    Feeds conn.order conn.consecutiveBad conn.recent tracker i.atNs
      (conn.feed tracker stats i) := by
  rw [ServedConnection.feed]
  cases hpush : conn.lines.push i.byte with
  | mk event lines =>
    cases event with
    | pending => exact .silent rfl rfl rfl rfl rfl rfl
    | oversizedEnd => exact .silent rfl rfl rfl rfl rfl rfl
    | overflowed =>
      have htreats := treats_badLine { conn with lines } tracker
        { stats with oversized := stats.oversized + 1 } (.inl rfl)
      exact .line .oversized { conn with lines } rfl rfl htreats ⟨[], conn.recent, rfl, nofun,
        htreats.recent⟩
    | line line =>
      show Feeds conn.order conn.consecutiveBad conn.recent tracker i.atNs
        (if line.isEmpty then _ else _)
      by_cases hempty : line.isEmpty = true
      · rw [if_pos hempty]
        exact .silent rfl rfl rfl rfl rfl rfl
      · rw [if_neg hempty]
        exact feeds_handleLine { conn with lines } tracker stats line i

end Lines

section Logs

variable {k : ℕ} {log : List ServerEvent} {e : ServerEvent}

private theorem filterMap_concat {α β : Type} (f : α → Option β) (l : List α) (a : α) :
    (l ++ [a]).filterMap f = l.filterMap f ++ (f a).toList := by
  rw [List.filterMap_append]
  cases h : f a <;> simp [h]

theorem appliedIn_concat (past : List (Fate × ℕ)) (fate : Fate) (atNs : ℕ) :
    appliedIn (past ++ [(fate, atNs)]) = appliedIn past ++ fate.message?.toList :=
  filterMap_concat ..

theorem parsedIn_concat (past : List (Fate × ℕ)) (fate : Fate) (atNs : ℕ) :
    parsedIn (past ++ [(fate, atNs)]) =
      parsedIn past ++ (if fate.isParsed then some atNs else none).toList :=
  filterMap_concat ..

theorem badRun_concat (past : List (Fate × ℕ)) (fate : Fate) (atNs : ℕ) :
    badRun (past ++ [(fate, atNs)]) = fate.count (badRun past) := by
  rw [badRun, runAtEnd_concat]
  cases fate <;> rfl

theorem linesOn_concat : linesOn k (log ++ [e]) = linesOn k log ++ (e.line? k).toList :=
  filterMap_concat ..

theorem linesOn_line (fate : Fate) (atNs : ℕ) :
    linesOn k (log ++ [.line k fate atNs]) = linesOn k log ++ [(fate, atNs)] := by
  rw [linesOn_concat, line?, if_pos rfl]
  rfl

theorem linesOn_opened (k' : ℕ) : linesOn k (log ++ [.opened k']) = linesOn k log := by
  rw [linesOn_concat]
  exact List.append_nil _

theorem linesOn_closed (k' : ℕ) (itself saidHello : Bool) :
    linesOn k (log ++ [.closed k' itself saidHello]) = linesOn k log := by
  rw [linesOn_concat]
  exact List.append_nil _

/-- An event of another connection. -/
theorem linesOn_of_ne (h : e.connection ≠ k) : linesOn k (log ++ [e]) = linesOn k log := by
  rw [linesOn_concat]
  cases e with
  | line k' fate atNs =>
    have hne : k' ≠ k := h
    rw [line?, if_neg hne]
    exact List.append_nil _
  | _ => exact List.append_nil _

/-- A connection that is still to come. -/
theorem linesOn_fresh (h : ∀ e ∈ log, e.connection ≠ k) : linesOn k log = [] := by
  induction log using List.reverseRecOn with
  | nil => rfl
  | append_singleton log e ih =>
    rw [linesOn_of_ne (h e (by simp))]
    exact ih fun e' he' => h e' (by simp [he'])

theorem endsOn_concat :
    EndsOn k (log ++ [e]) ↔
      ∃ fate atNs, e = .line k fate atNs ∧ fate.Ends (badRun (linesOn k (log ++ [e]))) := by
  constructor
  · rintro ⟨before, fate, atNs, heq, hends⟩
    exact ⟨fate, atNs, (List.cons.inj (List.append_inj' heq rfl).2).1, hends⟩
  · rintro ⟨fate, atNs, rfl, hends⟩
    exact ⟨log, fate, atNs, rfl, hends⟩

/-- What holds of the log alone. -/
structure LogKept (log : List ServerEvent) (last : ℕ) : Prop where
  numbers : (log.map connection).Pairwise (· ≤ ·)
  last : ∀ e ∈ log, e.connection ≤ last
  disciplined : ∀ k, Disciplined (appliedIn (linesOn k log))
  rate : ∀ k, RateKept (parsedIn (linesOn k log))
  closes : ∀ k before e after, log = before ++ e :: after →
    (EndsOn k before ↔ ∃ saidHello, e = .closed k true saidHello)

theorem LogKept.concat {last last' : ℕ} (h : LogKept log last) (hle : last ≤ last')
    (hlow : ∀ e' ∈ log, e'.connection ≤ e.connection) (hhigh : e.connection ≤ last')
    (hdisciplined : Disciplined (appliedIn (linesOn e.connection (log ++ [e]))))
    (hrate : RateKept (parsedIn (linesOn e.connection (log ++ [e]))))
    (hcloses : ∀ k, EndsOn k log ↔ ∃ saidHello, e = .closed k true saidHello) :
    LogKept (log ++ [e]) last' := by
  refine ⟨?_, ?_, fun k => ?_, fun k => ?_, fun k before e' after heq => ?_⟩
  · rw [List.map_append, List.pairwise_append]
    refine ⟨h.numbers, by simp, fun a ha b hb => ?_⟩
    obtain ⟨e', he', rfl⟩ := List.mem_map.mp ha
    obtain rfl : b = e.connection := by simpa using hb
    exact hlow e' he'
  · intro e' he'
    rcases List.mem_append.mp he' with he' | he'
    · exact (h.last e' he').trans hle
    · rwa [List.mem_singleton.mp he']
  · by_cases hk : e.connection = k
    · exact hk ▸ hdisciplined
    · rw [linesOn_of_ne hk]
      exact h.disciplined k
  · by_cases hk : e.connection = k
    · exact hk ▸ hrate
    · rw [linesOn_of_ne hk]
      exact h.rate k
  · induction after using List.reverseRecOn with
    | nil =>
      obtain ⟨rfl, hlast⟩ := List.append_inj' heq rfl
      obtain ⟨rfl, -⟩ := List.cons.inj hlast
      exact hcloses k
    | append_singleton after x _ =>
      have heq' : log ++ [e] = (before ++ e' :: after) ++ [x] := by simp [heq]
      exact h.closes k before e' after (List.append_inj' heq' rfl).1

/-- With nothing left to close, the log closes what it has to. -/
theorem LogKept.closesItself {last : ℕ} (h : LogKept log last) (hsettled : ∀ k, ¬ EndsOn k log) :
    ClosesItself log := by
  rintro k before after rfl
  cases after with
  | nil =>
    rw [List.append_nil] at hsettled
    exact iff_of_false (hsettled k) (by simp)
  | cons e after =>
    rw [h.closes k before e after rfl]
    constructor
    · rintro ⟨saidHello, rfl⟩
      exact ⟨saidHello, after, rfl⟩
    · rintro ⟨saidHello, rest, heq⟩
      exact ⟨saidHello, (List.cons.inj heq).1⟩

end Logs

section Messages

/-- What a connection remembers of the messages that were applied. -/
structure Remembers (c : Connection) (ms : List ProviderMessage) : Prop where
  disciplined : Disciplined ms
  silent : c.helloSeen = false → ms = []
  greeted : c.helloSeen = true → ms ≠ []
  seq : ∀ n ∈ ms.filterMap ProviderMessage.seq?, ∃ last ∈ c.lastSeq, n ≤ last
  tMs : ∀ t ∈ ms.filterMap ProviderMessage.tMs?, t ≤ c.lastTMs
  lastSeq : ∀ last ∈ c.lastSeq, last ∈ ms.filterMap ProviderMessage.seq?
  lastTMs : c.lastTMs = 0 ∨ c.lastTMs ∈ ms.filterMap ProviderMessage.tMs?

theorem Remembers.accepted : Remembers .accepted [] :=
  { disciplined := ⟨.inl rfl, .nil, .nil⟩
    silent := fun _ => rfl
    greeted := nofun
    seq := nofun
    tMs := nofun
    lastSeq := nofun
    lastTMs := .inl rfl }

variable {c c' : Connection} {ms : List ProviderMessage} {m : ProviderMessage}

theorem Remembers.lt_of_ordered (h : Remembers c ms) (hordered : c.ordered m = true) :
    (∀ n ∈ ms.filterMap ProviderMessage.seq?, ∀ s ∈ m.seq?, n < s) ∧
      ∀ t ∈ ms.filterMap ProviderMessage.tMs?, ∀ u ∈ m.tMs?, t ≤ u := by
  have hfollows {s : ℕ} (hs : c.follows s = true) {n : ℕ}
      (hn : n ∈ ms.filterMap ProviderMessage.seq?) : n < s := by
    obtain ⟨last, hlast, hle⟩ := h.seq n hn
    rw [Connection.follows, Option.mem_def.mp hlast] at hs
    exact Nat.lt_of_le_of_lt hle (of_decide_eq_true hs)
  cases m with
  | hello provider version => exact ⟨nofun, nofun⟩
  | permissionStatus seq status =>
    refine ⟨fun n hn s hs => ?_, nofun⟩
    obtain rfl := Option.some.inj hs
    exact hfollows hordered hn
  | context seq tMs ageMs context =>
    obtain ⟨hseq, htMs⟩ := (Bool.and_eq_true _ _).mp hordered
    refine ⟨fun n hn s hs => ?_, fun t ht u hu => ?_⟩
    · obtain rfl := Option.some.inj hs
      exact hfollows hseq hn
    · obtain rfl := Option.some.inj hu
      exact (h.tMs t ht).trans (of_decide_eq_true htMs)

private theorem pairwise_concat {α β : Type} {r : β → β → Prop} {f : α → Option β} {l : List α}
    {a : α} (hl : (l.filterMap f).Pairwise r) (ha : ∀ x ∈ l.filterMap f, ∀ y ∈ f a, r x y) :
    ((l ++ [a]).filterMap f).Pairwise r := by
  rw [filterMap_concat, List.pairwise_append]
  refine ⟨hl, ?_, fun x hx y hy => ha x hx y (Option.mem_toList.mp hy)⟩
  cases f a <;> simp

theorem Remembers.concat (h : Remembers c ms) (hturn : Turn c m c') : Remembers c' (ms ++ [m]) := by
  obtain ⟨hturn, hordered, hseen, hseq, htMs⟩ := hturn
  obtain ⟨hseqs, htimes⟩ := h.lt_of_ordered hordered
  refine ⟨⟨?_, pairwise_concat h.disciplined.seq hseqs, pairwise_concat h.disciplined.tMs htimes⟩,
    fun hnone => absurd (hseen.symm.trans hnone) nofun, fun _ => by simp, fun n hn => ?_,
    fun t ht => ?_, fun last hlast => ?_, ?_⟩
  · right
    cases hm : m.isHello with
    | true =>
      obtain rfl := h.silent (by simpa [hm] using hturn.symm)
      cases m with
      | hello provider version => exact ⟨provider, version, [], rfl, nofun⟩
      | permissionStatus seq status => cases hm
      | context seq tMs ageMs context => cases hm
    | false =>
      have hgreeted := h.greeted (by simpa [hm] using hturn.symm)
      obtain ⟨provider, version, rest, rfl, hrest⟩ := h.disciplined.hello.resolve_left hgreeted
      refine ⟨provider, version, rest ++ [m], rfl, fun d hd => ?_⟩
      rcases List.mem_append.mp hd with hd | hd
      · exact hrest d hd
      · rwa [List.mem_singleton.mp hd]
  · rw [filterMap_concat, List.mem_append, Option.mem_toList] at hn
    rw [hseq]
    cases hm : m.seq? with
    | none =>
      rw [hm] at hn
      exact h.seq n (hn.resolve_right nofun)
    | some s =>
      refine ⟨s, rfl, ?_⟩
      rcases hn with hn | hn
      · exact Nat.le_of_lt (hseqs n hn s hm)
      · exact Nat.le_of_eq (Option.some.inj (hn.symm.trans hm))
  · rw [filterMap_concat, List.mem_append, Option.mem_toList] at ht
    rw [htMs]
    cases hm : m.tMs? with
    | none =>
      rw [hm] at ht
      exact h.tMs t (ht.resolve_right nofun)
    | some u =>
      rcases ht with ht | ht
      · exact htimes t ht u hm
      · exact Nat.le_of_eq (Option.some.inj (ht.symm.trans hm))
  · rw [hseq] at hlast
    rw [filterMap_concat, List.mem_append, Option.mem_toList]
    cases hm : m.seq? with
    | none =>
      rw [hm] at hlast
      exact .inl (h.lastSeq last hlast)
    | some s =>
      rw [hm] at hlast
      exact .inr hlast
  · rw [htMs, filterMap_concat, List.mem_append, Option.mem_toList]
    cases hm : m.tMs? with
    | none => exact h.lastTMs.imp_right .inl
    | some u => exact .inr (.inr rfl)

end Messages

section Rates

private theorem countP_old {old : List ℕ} {t atNs : ℕ} (hold : ∀ u ∈ old, u + second ≤ atNs)
    (ht : atNs < t + second) :
    old.countP (fun u => decide (t ≤ u ∧ u < t + second)) = 0 := by
  rw [List.countP_eq_zero]
  intro u hu
  have hle := hold u hu
  simp only [decide_eq_true_eq, not_and, not_lt]
  omega

/-- A line parsed with fewer than the most in its last second. -/
theorem RateKept.concat {old kept : List ℕ} {atNs : ℕ} (h : RateKept (old ++ kept))
    (hold : ∀ u ∈ old, u + second ≤ atNs) (hkept : kept.length < maxMessagesPerSecond) :
    RateKept (old ++ (kept ++ [atNs])) := by
  intro t
  by_cases hwindow : t ≤ atNs ∧ atNs < t + second
  · rw [List.countP_append, countP_old hold hwindow.2]
    have hle := List.countP_le_length (p := fun u => decide (t ≤ u ∧ u < t + second))
      (l := kept ++ [atNs])
    rw [List.length_append, List.length_singleton] at hle
    omega
  · have hlast : [atNs].countP (fun u => decide (t ≤ u ∧ u < t + second)) = 0 := by
      simp [hwindow]
    rw [← List.append_assoc, List.countP_append, hlast, Nat.add_zero]
    exact h t

end Rates

/-- What a connection keeps of its part of the log. -/
structure Serves (conn : ServedConnection) (past : List (Fate × ℕ)) (clockNs : ℕ) : Prop where
  remembers : Remembers conn.order (appliedIn past)
  bad : conn.consecutiveBad = badRun past
  recent : ∃ old, parsedIn past = old ++ conn.recent ∧ ∀ u ∈ old, u + second ≤ clockNs
  sorted : (parsedIn past).Pairwise (· ≤ ·) ∧ ∀ u ∈ parsedIn past, u ≤ clockNs

/-- The invariant of the server. -/
structure Guarded (s : ContextServer) : Prop where
  tracker : s.tracker = TrackerCall.replay (s.log.filterMap call?)
  connected : s.tracker.connected = s.current.any (·.order.helloSeen)
  log : LogKept s.log s.connections
  settled : ∀ k, ¬ EndsOn k s.log
  current : ∀ conn ∈ s.current, Serves conn (linesOn s.connections s.log) s.clockNs ∧
    conn.consecutiveBad < maxConsecutiveBad

section Steps

variable {s : ContextServer} {conn : ServedConnection} {i : Incoming}

theorem Guarded.init : Guarded .init :=
  { tracker := rfl
    connected := rfl
    log :=
      { numbers := .nil
        last := nofun
        disciplined := fun _ => Remembers.accepted.disciplined
        rate := fun _ _ => Nat.zero_le _
        closes := fun k before e after heq => by cases before <;> cases heq }
    settled := fun k ⟨before, _, _, heq, _⟩ => by cases before <;> cases heq
    current := nofun }

/-- A server whose last byte is handled, before a closing verdict is followed. -/
structure Fed (s : ContextServer) (conn : ServedConnection) (verdict : Verdict) : Prop where
  tracker : s.tracker = TrackerCall.replay (s.log.filterMap call?)
  connected : s.tracker.connected = conn.order.helloSeen
  log : LogKept s.log s.connections
  ends : ∀ k, EndsOn k s.log ↔ verdict = .close ∧ k = s.connections
  serves : Serves conn (linesOn s.connections s.log) s.clockNs
  few : verdict = .keep → conn.consecutiveBad < maxConsecutiveBad

private theorem of_unapplied {k atNs : ℕ} {fate : Fate} (h : fate.isApplied = false) :
    (ServerEvent.line k fate atNs).call? = none ∧ fate.message? = none := by
  cases fate with
  | applied message acknowledged nowMs => cases h
  | _ => exact ⟨rfl, rfl⟩

private theorem connected_apply {t : ContextTracker} {c c' : Connection} {m : ProviderMessage}
    (hturn : Turn c m c') (h : t.connected = c.helloSeen) (nowMs : ℕ) :
    (TrackerCall.apply t (m.call nowMs)).connected = c'.helloSeen := by
  rw [hturn.seen]
  cases m with
  | hello provider version => rfl
  | permissionStatus seq status =>
    exact h.trans (by simpa [ProviderMessage.isHello] using hturn.turn)
  | context seq tMs ageMs context =>
    exact h.trans (by simpa [ProviderMessage.isHello] using hturn.turn)

theorem log_feed_silent (hnone : (conn.feed s.tracker s.stats i).fate = none) :
    (s.feed conn i).log = s.log := by
  simp [ContextServer.feed, hnone]

theorem log_feed_line {fate : Fate} (hfate : (conn.feed s.tracker s.stats i).fate = some fate) :
    (s.feed conn i).log = s.log ++ [.line s.connections fate i.atNs] := by
  simp [ContextServer.feed, hfate]

theorem Guarded.fed (h : Guarded s) (hcurrent : s.current = some conn)
    (hclock : s.clockNs ≤ i.atNs) :
    Fed (s.feed conn i) (conn.feed s.tracker s.stats i).conn
      (conn.feed s.tracker s.stats i).verdict := by
  obtain ⟨hserves, hfew⟩ := h.current conn hcurrent
  have hconnected : s.tracker.connected = conn.order.helloSeen := by
    rw [h.connected, hcurrent, Option.any_some]
  obtain ⟨old, hold, hpast⟩ := hserves.recent
  obtain ⟨hsorted, hlate⟩ := hserves.sorted
  cases feeds_feed conn s.tracker s.stats i with
  | silent hfate hverdict htracker horder hbad hrecent =>
    have hlog := log_feed_silent hfate
    have htracker' : (s.feed conn i).tracker = s.tracker := htracker
    refine ⟨by rw [hlog, htracker', h.tracker], by rw [htracker', horder, hconnected], hlog ▸ h.log,
      fun k => ?_, ⟨?_, ?_, ⟨old, ?_, fun u hu => (hpast u hu).trans hclock⟩, ?_⟩,
      fun _ => hbad ▸ hfew⟩
    · rw [hlog, hverdict]
      exact iff_of_false (h.settled k) nofun
    · rw [hlog, horder]
      exact hserves.remembers
    · rw [hlog, hbad]
      exact hserves.bad
    · rw [hlog, hrecent]
      exact hold
    · rw [hlog]
      exact ⟨hsorted, fun u hu => (hlate u hu).trans hclock⟩
  | line fate c horder hbad htreats hlimits =>
    have hlog := log_feed_line htreats.isFate
    have hlines : linesOn s.connections (s.feed conn i).log =
        linesOn s.connections s.log ++ [(fate, i.atNs)] := by
      rw [hlog, linesOn_line]
    have hcount : (conn.feed s.tracker s.stats i).conn.consecutiveBad =
        badRun (linesOn s.connections (s.feed conn i).log) := by
      rw [hlines, badRun_concat, ← hserves.bad, htreats.bad, hbad]
    have hends (k : ℕ) : EndsOn k (s.feed conn i).log ↔
        (conn.feed s.tracker s.stats i).verdict = .close ∧ k = s.connections := by
      rw [htreats.verdict (hbad ▸ hfew), ← htreats.bad, hcount, hlog, endsOn_concat]
      constructor
      · rintro ⟨fate', atNs, heq, hends⟩
        obtain ⟨rfl, rfl, rfl⟩ := ServerEvent.line.inj heq
        exact ⟨hends, rfl⟩
      · rintro ⟨hends, rfl⟩
        exact ⟨fate, i.atNs, rfl, hends⟩
    obtain ⟨dropped, kept, hsplit, hdropped, hkept⟩ := hlimits
    have hold' : parsedIn (linesOn s.connections s.log) = (old ++ dropped) ++ kept := by
      rw [hold, hsplit, List.append_assoc]
    have hpast' : ∀ u ∈ old ++ dropped, u + second ≤ i.atNs := fun u hu =>
      (List.mem_append.mp hu).elim (fun hu => (hpast u hu).trans hclock) (hdropped u)
    have hafter : parsedIn (linesOn s.connections (s.feed conn i).log) =
        (old ++ dropped) ++ (conn.feed s.tracker s.stats i).conn.recent ∧
          RateKept (parsedIn (linesOn s.connections (s.feed conn i).log)) := by
      have hrate := h.log.rate s.connections
      rw [hlines, parsedIn_concat, hold'] at *
      by_cases hparsed : fate.isParsed = true
      · rw [if_pos hparsed] at hkept
        rw [if_pos hparsed, Option.toList_some, List.append_assoc, ← hkept.2]
        exact ⟨rfl, hkept.2 ▸ hrate.concat hpast' hkept.1⟩
      · rw [if_neg hparsed] at hkept
        rw [if_neg hparsed, Option.toList_none, List.append_nil, hkept]
        exact ⟨rfl, hrate⟩
    have hsorted' : (parsedIn (linesOn s.connections (s.feed conn i).log)).Pairwise (· ≤ ·) ∧
        ∀ u ∈ parsedIn (linesOn s.connections (s.feed conn i).log), u ≤ i.atNs := by
      rw [hlines, parsedIn_concat, List.pairwise_append]
      have hlast : ∀ u ∈ (if fate.isParsed then some i.atNs else none).toList, u = i.atNs := by
        split_ifs <;> simp
      refine ⟨⟨hsorted, ?_, fun u hu v hv => ?_⟩, fun u hu => ?_⟩
      · split_ifs <;> simp
      · rw [hlast v hv]
        exact (hlate u hu).trans hclock
      · rcases List.mem_append.mp hu with hu | hu
        · exact (hlate u hu).trans hclock
        · exact Nat.le_of_eq (hlast u hu)
    have hmessages : Remembers (conn.feed s.tracker s.stats i).conn.order
          (appliedIn (linesOn s.connections (s.feed conn i).log)) ∧
        (s.feed conn i).tracker = TrackerCall.replay ((s.feed conn i).log.filterMap call?) ∧
        (s.feed conn i).tracker.connected =
          (conn.feed s.tracker s.stats i).conn.order.helloSeen := by
      have htracker : (s.feed conn i).tracker = (conn.feed s.tracker s.stats i).tracker := rfl
      rw [hlines, appliedIn_concat, hlog, filterMap_concat, htracker]
      cases happlied : fate.isApplied with
      | false =>
        obtain ⟨hsame, horder'⟩ := htreats.unapplied happlied
        obtain ⟨hcall, hnone⟩ := @of_unapplied s.connections i.atNs _ happlied
        rw [hsame, horder', horder, hcall, hnone]
        simp only [Option.toList_none, List.append_nil]
        exact ⟨hserves.remembers, h.tracker, hconnected⟩
      | true =>
        cases fate with
        | applied m acknowledged nowMs =>
          obtain ⟨hcalled, hturn⟩ := htreats.applied m acknowledged nowMs rfl
          rw [horder] at hturn
          refine ⟨hserves.remembers.concat hturn, ?_, ?_⟩
          · rw [hcalled, h.tracker]
            exact (TrackerCall.replay_concat ..).symm
          · rw [hcalled]
            exact connected_apply hturn hconnected nowMs
        | _ => cases happlied
    obtain ⟨hremembers, htracker, hconnected'⟩ := hmessages
    refine ⟨htracker, hconnected', ?_, hends,
      ⟨hremembers, hcount, ⟨old ++ dropped, hafter.1, hpast'⟩, hsorted'⟩, fun hkeep => ?_⟩
    · rw [hlog] at hremembers hafter ⊢
      exact h.log.concat (Nat.le_refl _) h.log.last (Nat.le_refl _) hremembers.disciplined hafter.2
        fun k => iff_of_false (h.settled k) nofun
    · rw [htreats.bad]
      refine Fate.count_lt (hbad ▸ hfew) fun hends' => ?_
      exact absurd (hkeep.symm.trans ((htreats.verdict (hbad ▸ hfew)).mpr hends')) nofun

/-- The end of a connection, in the order that the server's own closing has to keep. -/
theorem guarded_close {itself : Bool}
    (htracker : s.tracker = TrackerCall.replay (s.log.filterMap call?))
    (hconnected : s.tracker.connected = conn.order.helloSeen) (hlog : LogKept s.log s.connections)
    (hends : ∀ k, EndsOn k s.log ↔ itself = true ∧ k = s.connections) :
    Guarded (s.close conn itself) := by
  have hlog' : (s.close conn itself).log =
      s.log ++ [.closed s.connections itself conn.order.helloSeen] := rfl
  refine ⟨?_, ?_, ?_, fun k => ?_, nofun⟩
  · rw [hlog', filterMap_concat]
    cases hseen : conn.order.helloSeen with
    | true =>
      rw [ContextServer.close, hseen, if_pos rfl, htracker]
      exact (TrackerCall.replay_concat (s.log.filterMap call?) .disconnected).symm
    | false =>
      rw [ContextServer.close, hseen, if_neg nofun, htracker]
      exact congrArg _ (List.append_nil _).symm
  · cases hseen : conn.order.helloSeen with
    | true => simp [ContextServer.close, hseen, ContextTracker.onDisconnected]
    | false => simp [ContextServer.close, hseen, hconnected]
  · refine hlog.concat (Nat.le_refl _) hlog.last (Nat.le_refl _) ?_ ?_ fun k => (hends k).trans ?_
    · rw [linesOn_closed]
      exact hlog.disciplined _
    · rw [linesOn_closed]
      exact hlog.rate _
    · constructor
      · rintro ⟨rfl, rfl⟩
        exact ⟨_, rfl⟩
      · rintro ⟨saidHello, heq⟩
        obtain ⟨rfl, rfl, -⟩ := ServerEvent.closed.inj heq
        exact ⟨rfl, rfl⟩
  · rw [hlog', endsOn_concat]
    rintro ⟨_, _, heq, -⟩
    cases heq

theorem Guarded.receive (h : Guarded s) (hcurrent : s.current = some conn)
    (hclock : s.clockNs ≤ i.atNs) :
    Guarded (s.receive conn i) ∧ (s.receive conn i).clockNs = i.atNs := by
  have hfed := h.fed hcurrent hclock
  rw [ContextServer.receive]
  cases hverdict : (conn.feed s.tracker s.stats i).verdict with
  | keep =>
    rw [hverdict] at hfed
    refine ⟨⟨hfed.tracker, hfed.connected, hfed.log, fun k hk => ?_, fun c hc => ?_⟩, rfl⟩
    · exact absurd ((hfed.ends k).mp hk).1 nofun
    · obtain rfl := Option.some.inj hc
      exact ⟨hfed.serves, hfed.few rfl⟩
  | close =>
    rw [hverdict] at hfed
    exact ⟨guarded_close hfed.tracker hfed.connected hfed.log fun k => by
      rw [hfed.ends k, eq_self, eq_self], rfl⟩

/-- The bytes of a read, one after the other. -/
theorem Guarded.read {is : List Incoming} (h : Guarded s)
    (hclock : (s.clockNs :: is.map (·.atNs)).Pairwise (· ≤ ·)) : Guarded (s.read is) := by
  induction is generalizing s with
  | nil => exact h
  | cons i is ih =>
    rw [ContextServer.read]
    cases hcurrent : s.current with
    | none => exact h
    | some conn =>
      obtain ⟨hfirst, hrest⟩ := List.pairwise_cons.mp hclock
      obtain ⟨hguarded, hnow⟩ := h.receive hcurrent (hfirst i.atNs (by simp))
      exact ih hguarded (by rw [hnow]; exact hrest)

theorem Guarded.close (h : Guarded s) (hcurrent : s.current = some conn) :
    Guarded (s.close conn false) := by
  have hconnected : s.tracker.connected = conn.order.helloSeen := by
    rw [h.connected, hcurrent, Option.any_some]
  exact guarded_close h.tracker hconnected h.log fun k => iff_of_false (h.settled k) (by simp)

theorem Guarded.withStats (h : Guarded s) (stats : Stats) : Guarded { s with stats } :=
  ⟨h.tracker, h.connected, h.log, h.settled, h.current⟩

theorem Guarded.closeCurrent (h : Guarded s) :
    Guarded s.closeCurrent ∧ s.closeCurrent.current = none := by
  rw [ContextServer.closeCurrent]
  cases hcurrent : s.current with
  | none => exact ⟨h, hcurrent⟩
  | some conn => exact ⟨h.close hcurrent, rfl⟩

theorem Guarded.replace (h : Guarded s) : Guarded s.replace ∧ s.replace.current = none := by
  rw [ContextServer.replace]
  cases hcurrent : s.current with
  | none => exact ⟨h, hcurrent⟩
  | some conn => exact ⟨(h.withStats _).close hcurrent, rfl⟩

theorem Guarded.serve (h : Guarded s) (hcurrent : s.current = none) : Guarded s.serve := by
  have hfresh : ∀ e ∈ s.log, e.connection ≠ s.connections + 1 := fun e he =>
    Nat.ne_of_lt (Nat.lt_succ_of_le (h.log.last e he))
  have hlog : s.serve.log = s.log ++ [.opened (s.connections + 1)] := rfl
  have hlines : linesOn (s.connections + 1) s.serve.log = [] := by
    rw [hlog, linesOn_opened, linesOn_fresh hfresh]
  refine ⟨?_, ?_, ?_, fun k => ?_, fun conn hconn => ?_⟩
  · rw [hlog, filterMap_concat]
    exact h.tracker.trans (congrArg _ (List.append_nil _).symm)
  · exact h.connected.trans (by rw [hcurrent]; rfl)
  · exact h.log.concat (Nat.le_succ _) (fun e he => (h.log.last e he).trans (Nat.le_succ _))
      (Nat.le_refl _) (hlines ▸ Remembers.accepted.disciplined)
      (hlines ▸ fun t => Nat.zero_le _) fun k => iff_of_false (h.settled k) nofun
  · rw [hlog, endsOn_concat]
    rintro ⟨_, _, heq, -⟩
    cases heq
  · obtain rfl := Option.some.inj hconn
    refine ⟨?_, by decide⟩
    change Serves .init (linesOn (s.connections + 1) s.serve.log) s.clockNs
    rw [hlines]
    exact ⟨.accepted, rfl, ⟨[], rfl, nofun⟩, .nil, nofun⟩

/-- Every action keeps the invariant. -/
theorem Guarded.step {s' : ContextServer} {a : ServerAction} (h : Guarded s)
    (hstep : s.step a = some s') : Guarded s' := by
  obtain ⟨-, hstep⟩ := Option.ite_none_left_eq_some.mp hstep
  cases a with
  | accept sameUid prepared =>
    obtain rfl := Option.some.inj hstep
    rw [ContextServer.accept]
    split_ifs
    · exact h.withStats _
    · exact h
    · obtain ⟨hreplaced, hnone⟩ := (h.withStats _).replace
      exact hreplaced.serve hnone
  | read bytes =>
    obtain ⟨hguard, hsome⟩ := Option.ite_none_right_eq_some.mp hstep
    obtain rfl := Option.some.inj hsome
    exact h.read hguard.2
  | hangUp =>
    obtain ⟨-, hsome⟩ := Option.ite_none_right_eq_some.mp hstep
    obtain rfl := Option.some.inj hsome
    exact h.closeCurrent.1
  | stop =>
    obtain rfl := Option.some.inj hstep
    obtain ⟨hclosed, -⟩ := h.closeCurrent
    exact ⟨hclosed.tracker, hclosed.connected, hclosed.log, hclosed.settled, hclosed.current⟩

end Steps

theorem guarded_run {actions : List ServerAction} {s : ContextServer}
    (h : run ContextServer.step .init actions = some s) : Guarded s := by
  induction actions using List.reverseRecOn generalizing s with
  | nil =>
    obtain rfl := Option.some.inj h
    exact Guarded.init
  | append_singleton actions a ih =>
    obtain ⟨v, hv, ha⟩ := run_concat_eq_some h
    exact (ih hv).step ha

end CydMonitor.Wifi
