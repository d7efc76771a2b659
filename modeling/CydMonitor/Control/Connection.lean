import CydMonitor.Control.Requests
import CydMonitor.Control.Responses
import CydMonitor.Lib.Trace
import CydMonitor.Wifi.Server

/-!
# A connection of the control socket (`serve_connection` in `host/hostcore/src/control.rs`)

The bytes of a client come in reads of any size. The replies are those to the lines of the stream,
up to the one that the server closes the connection after.
-/

namespace CydMonitor.ControlIpc

open Hooks (byteLength)
open Wifi (LineReader LineEvent maxConsecutiveBad)
open Wifi.LineReader (Holds holds_init)
open Text (byte)

def maxResponseBytes : ℕ := 8192

structure ControlStats where
  accepted : UInt64
  requests : UInt64
  wrongUid : UInt64
  malformed : UInt64
  oversized : UInt64
  badVersion : UInt64
  unknownCommand : UInt64
  busy : UInt64
  closedForBadLines : UInt64
  deriving DecidableEq

/-- What the `k`th request that is handed over is answered with. -/
abbrev Handler := (k : ℕ) → Request → ControlStats → List Char

/-- What is known of a connection between two lines; `handed`: the requests so far. -/
structure Session where
  consecutiveBad : ℕ
  counters : ControlStats
  handed : List Request
  replies : List (List Char)
  closed : Bool
  deriving DecidableEq

namespace Session

def init (counters : ControlStats) : Session :=
  { consecutiveBad := 0, counters, handed := [], replies := [], closed := false }

/-- A reply is written, and too many bad lines in a row end the connection. -/
def reply (s : Session) (text : List Char) : Session :=
  let s := { s with replies := s.replies ++ [text] }
  if maxConsecutiveBad ≤ s.consecutiveBad then
    { s with
      counters := { s.counters with closedForBadLines := s.counters.closedForBadLines + 1 }
      closed := true }
  else s

def badLine (s : Session) (counters : ControlStats) (code message : String) : Session :=
  { s with consecutiveBad := s.consecutiveBad + 1, counters }.reply
    (errorResponse code.toList message.toList)

def oversized (s : Session) : Session :=
  s.badLine { s.counters with oversized := s.counters.oversized + 1 } "oversized"
    "request line too long"

/-- A complete line; `none`: it was too long to be kept. -/
def serve (handler : Handler) (s : Session) : Option (List UInt8) → Session
  | none => s.oversized
  | some line =>
    match parseRequest line with
    | .ok request =>
      let counters := { s.counters with requests := s.counters.requests + 1 }
      let response := handler s.handed.length request counters
      { s with consecutiveBad := 0, counters, handed := s.handed ++ [request] }.reply
        (if byteLength response > maxResponseBytes then
          errorResponse "response_too_large".toList "response too large".toList
        else response)
    | .error .badVersion =>
      { s with
        counters := { s.counters with badVersion := s.counters.badVersion + 1 }
        replies := s.replies ++
          [errorResponse "unsupported_version".toList "only v1 is supported".toList]
        closed := true }
    | .error .unknownCommand =>
      s.badLine { s.counters with unknownCommand := s.counters.unknownCommand + 1 }
        "unknown_command" "no such command"
    | .error .tooLong => s.oversized
    | .error .malformed =>
      s.badLine { s.counters with malformed := s.counters.malformed + 1 } "malformed"
        "not a valid request"

end Session

structure Connection where
  lines : LineReader
  session : Session
  deriving DecidableEq

/-- How a read of the socket ends; `again`: no bytes within the timeout. -/
inductive ReadResult where
  | bytes (chunk : List UInt8)
  | again
  | ended
  deriving DecidableEq

namespace Connection

def init (counters : ControlStats) : Connection :=
  { lines := .init maxRequestBytes, session := .init counters }

def push (handler : Handler) (c : Connection) (b : UInt8) : Connection :=
  match c.lines.push b with
  | (.pending, lines) | (.overflowed, lines) => { c with lines }
  | (.oversizedEnd, lines) => { lines, session := c.session.serve handler none }
  | (.line line, lines) => { lines, session := c.session.serve handler (some line) }

/-- The bytes of a read, up to the end of the connection. -/
def pushAll (handler : Handler) (c : Connection) (chunk : List UInt8) : Connection :=
  chunk.foldl (fun c b => if c.session.closed then c else c.push handler b) c

end Connection

def serveConnection (handler : Handler) (c : Connection) : List ReadResult → Connection
  | [] | .ended :: _ => c
  | .again :: reads => serveConnection handler c reads
  | .bytes chunk :: reads =>
    let c := c.pushAll handler chunk
    if c.session.closed then c else serveConnection handler c reads

/-- The bytes that the client gets through. -/
def received : List ReadResult → List UInt8
  | [] | .ended :: _ => []
  | .again :: reads => received reads
  | .bytes chunk :: reads => chunk ++ received reads

/-- The lines of a stream that end with a newline. -/
def terminatedLines (stream : List UInt8) : List (List UInt8) :=
  (stream.splitOn (byte '\n')).dropLast

/-- The counters after a line. -/
def bumped (stats : ControlStats) (line : List UInt8) : ControlStats :=
  match parseRequest line with
  | .ok _ => { stats with requests := stats.requests + 1 }
  | .error .malformed => { stats with malformed := stats.malformed + 1 }
  | .error .tooLong => { stats with oversized := stats.oversized + 1 }
  | .error .unknownCommand => { stats with unknownCommand := stats.unknownCommand + 1 }
  | .error .badVersion => { stats with badVersion := stats.badVersion + 1 }

/-- The requests, malformed, oversized, unknown_command and bad_version counters. -/
def ControlStats.answered (stats : ControlStats) : UInt64 :=
  stats.requests + stats.malformed + stats.oversized + stats.unknownCommand + stats.badVersion

def refusal : RequestError → List Char
  | .malformed => errorResponse "malformed".toList "not a valid request".toList
  | .tooLong => errorResponse "oversized".toList "request line too long".toList
  | .unknownCommand => errorResponse "unknown_command".toList "no such command".toList
  | .badVersion => errorResponse "unsupported_version".toList "only v1 is supported".toList

/-- A response of the handler, or what is sent for one that is too long. -/
def bounded (response : List Char) : List Char :=
  if 8192 < byteLength response then
    errorResponse "response_too_large".toList "response too large".toList
  else response

/-- The requests that lines hand over. -/
def requestsOf (lines : List (List UInt8)) : List Request :=
  lines.filterMap fun line => (parseRequest line).toOption

/-- One reply a line; `k` requests were handed over before. -/
def repliesTo (handler : Handler) : (k : ℕ) → ControlStats → List (List UInt8) → List (List Char)
  | _, _, [] => []
  | k, stats, line :: lines =>
    match parseRequest line with
    | .ok request =>
      bounded (handler k request (bumped stats line)) ::
        repliesTo handler (k + 1) (bumped stats line) lines
    | .error e => refusal e :: repliesTo handler k (bumped stats line) lines

/-- Neither a request nor of another version. -/
def IsBad (line : List UInt8) : Prop :=
  ∃ e, parseRequest line = .error e ∧ e ≠ .badVersion

instance (line : List UInt8) : Decidable (IsBad line) :=
  match h : parseRequest line with
  | .ok _ => isFalse fun ⟨_, he, _⟩ => by rw [h] at he; cases he
  | .error e =>
    if hv : e = .badVersion then
      isFalse fun ⟨_, he, hne⟩ => hne (by rw [h] at he; cases he; exact hv)
    else isTrue ⟨e, h, hv⟩

/-- The bad lines in a row at the end. -/
def badRun (lines : List (List UInt8)) : ℕ :=
  Trace.runAtEnd (fun l => decide (IsBad l)) (fun l => !decide (IsBad l)) lines

/-- The connection ends after these lines. -/
def Closes (lines : List (List UInt8)) : Prop :=
  (∃ line ∈ lines.getLast?, WrongVersion line) ∨ 16 ≤ badRun lines

variable {handler : Handler}

/-- The session after lines, up to the one that it is closed after. -/
def Session.serveAll (handler : Handler) (s : Session) (lines : List (List UInt8)) : Session :=
  lines.foldl (fun s line => if s.closed then s else s.serve handler (some line)) s

theorem terminatedLines_open {cur : List UInt8} (h : byte '\n' ∉ cur) :
    terminatedLines cur = [] := by
  rw [terminatedLines, List.splitOn_eq_singleton h]
  rfl

theorem terminatedLines_line {cur : List UInt8} (h : byte '\n' ∉ cur) (rest : List UInt8) :
    terminatedLines (cur ++ byte '\n' :: rest) = cur :: terminatedLines rest := by
  rw [terminatedLines, List.splitOn_append_cons_self_of_not_mem h,
    List.dropLast_cons_of_ne_nil (List.splitOn_ne_nil _ _)]
  rfl

theorem serve_none (s : Session) {line : List UInt8} (h : maxRequestBytes < line.length) :
    s.serve handler none = s.serve handler (some line) := by
  rw [Session.serve, Session.serve, parseRequest_tooLong.mpr h]

theorem push_newline {c : Connection} {cur : List UInt8} (h : Holds maxRequestBytes c.lines cur) :
    (c.push handler (byte '\n')).session = c.session.serve handler (some cur) ∧
      Holds maxRequestBytes (c.push handler (byte '\n')).lines [] := by
  obtain ⟨hevent, hnext⟩ := h.newline
  rw [Connection.push]
  rcases hpush : c.lines.push (byte '\n') with ⟨event, lines⟩
  rw [hpush] at hevent hnext
  dsimp only at hevent hnext
  split_ifs at hevent with hkept
  · rw [hevent]
    exact ⟨rfl, hnext⟩
  · rw [hevent]
    exact ⟨serve_none c.session (Nat.lt_of_not_le hkept), hnext⟩

theorem serveAll_closed {s : Session} (h : s.closed = true) (lines : List (List UInt8)) :
    s.serveAll handler lines = s := by
  induction lines with
  | nil => rfl
  | cons line lines ih =>
    rw [Session.serveAll, List.foldl_cons, if_pos h]
    exact ih

theorem pushAll_closed {c : Connection} (h : c.session.closed = true) (chunk : List UInt8) :
    c.pushAll handler chunk = c := by
  induction chunk with
  | nil => rfl
  | cons b chunk ih =>
    rw [Connection.pushAll, List.foldl_cons, if_pos h]
    exact ih

theorem pushAll_append (c : Connection) (a b : List UInt8) :
    c.pushAll handler (a ++ b) = (c.pushAll handler a).pushAll handler b :=
  List.foldl_append

/-- However the bytes come, the lines that they end are served. -/
theorem pushAll_lines {c : Connection} {cur : List UInt8} (h : Holds maxRequestBytes c.lines cur)
    (stream : List UInt8) :
    (c.pushAll handler stream).session =
        c.session.serveAll handler (terminatedLines (cur ++ stream)) ∧
      (c.pushAll handler stream).lines.line.length ≤ maxRequestBytes := by
  induction stream generalizing c cur with
  | nil =>
    rw [List.append_nil, terminatedLines_open h.unfinished]
    exact ⟨rfl, h.length_le⟩
  | cons b stream ih =>
    by_cases hclosed : c.session.closed = true
    · rw [pushAll_closed hclosed, serveAll_closed hclosed]
      exact ⟨rfl, h.length_le⟩
    · rw [Connection.pushAll, List.foldl_cons, if_neg hclosed]
      by_cases hb : b = byte '\n'
      · obtain ⟨hserved, hnext⟩ := @push_newline handler _ _ h
        obtain ⟨hsession, hlength⟩ := ih hnext
        rw [hb, terminatedLines_line h.unfinished, Session.serveAll, List.foldl_cons,
          if_neg hclosed, ← hserved]
        exact ⟨hsession, hlength⟩
      · obtain ⟨hevent, hnext⟩ := h.push hb
        have hpush : c.push handler b = { c with lines := (c.lines.push b).2 } := by
          rw [Connection.push]
          rcases hpushed : c.lines.push b with ⟨event, lines⟩
          rw [hpushed] at hevent
          dsimp only at hevent
          split_ifs at hevent <;> rw [hevent]
        rw [hpush]
        have hrest := @ih { c with lines := (c.lines.push b).2 } _ hnext
        rwa [List.append_assoc] at hrest

theorem serveConnection_received (c : Connection) (reads : List ReadResult) :
    serveConnection handler c reads = c.pushAll handler (received reads) := by
  induction reads generalizing c with
  | nil => rfl
  | cons r reads ih =>
    cases r with
    | ended => rfl
    | again => exact ih c
    | bytes chunk =>
      rw [serveConnection, received, pushAll_append]
      split_ifs with hclosed
      · exact (pushAll_closed hclosed _).symm
      · exact ih _

/-- The bad lines in a row after a line. -/
def runAfter (run : ℕ) (line : List UInt8) : ℕ := if IsBad line then run + 1 else 0

/-- The counters with the bump for a connection that ends for bad lines. -/
def counted (run : ℕ) (stats : ControlStats) : ControlStats :=
  { stats with
    closedForBadLines := if 16 ≤ run then stats.closedForBadLines + 1 else stats.closedForBadLines }

/-- A line of an open connection, and what becomes of it. -/
structure Replied (handler : Handler) (s : Session) (line : List UInt8) (s' : Session) : Prop where
  replies : s'.replies = s.replies ++ repliesTo handler s.handed.length s.counters [line]
  handed : s'.handed = s.handed ++ requestsOf [line]
  counters : s'.counters = counted (runAfter s.consecutiveBad line) (bumped s.counters line)
  closed : s'.closed = true ↔ WrongVersion line ∨ 16 ≤ runAfter s.consecutiveBad line
  run : s'.closed = false → s'.consecutiveBad = runAfter s.consecutiveBad line

theorem replied_reply {s t : Session} {line : List UInt8} {text : List Char}
    (hopen : t.closed = false) (hreplies : t.replies = s.replies)
    (htext : repliesTo handler s.handed.length s.counters [line] = [text])
    (hhanded : t.handed = s.handed ++ requestsOf [line])
    (hcounters : t.counters = bumped s.counters line) (hversion : ¬WrongVersion line)
    (hrun : t.consecutiveBad = runAfter s.consecutiveBad line) :
    Replied handler s line (t.reply text) := by
  rw [Session.reply]
  by_cases hmany : 16 ≤ runAfter s.consecutiveBad line
  · have hmany' : maxConsecutiveBad ≤ t.consecutiveBad := hrun ▸ hmany
    simp only [hmany', if_true]
    refine ⟨by rw [htext, hreplies], hhanded, ?_, iff_of_true rfl (.inr hmany), nofun⟩
    rw [counted, if_pos hmany, hcounters]
  · have hmany' : ¬maxConsecutiveBad ≤ t.consecutiveBad := hrun ▸ hmany
    simp only [hmany', if_false]
    refine ⟨by rw [htext, hreplies], hhanded, ?_, ?_, fun _ => hrun⟩
    · rw [counted, if_neg hmany]
      exact hcounters
    · exact iff_of_false (by simp [hopen]) (by simp [hversion, hmany])

theorem isBad_iff {line : List UInt8} {e : RequestError} (h : parseRequest line = .error e) :
    IsBad line ↔ e ≠ .badVersion := by
  constructor
  · intro ⟨e', he', hne⟩
    rw [h] at he'
    cases he'
    exact hne
  · exact fun hne => ⟨e, h, hne⟩

/-- A line of any of the three kinds that are counted as bad. -/
theorem replied_badLine {s : Session} (hopen : s.closed = false) {line : List UInt8}
    {e : RequestError} (h : parseRequest line = .error e) (he : e ≠ .badVersion)
    {counters : ControlStats} (hcounters : bumped s.counters line = counters)
    {code message : String} (htext : refusal e = errorResponse code.toList message.toList) :
    Replied handler s line (s.badLine counters code message) := by
  have hversion : ¬WrongVersion line := by
    rw [← parseRequest_badVersion, h]
    exact fun heq => he (Except.error.inj heq)
  refine replied_reply hopen rfl ?_ ?_ hcounters.symm hversion ?_
  · rw [repliesTo, h, ← htext]
    rfl
  · simp [requestsOf, h, Except.toOption]
  · rw [runAfter, if_pos ((isBad_iff h).mpr he)]

theorem serve_spec {s : Session} (hopen : s.closed = false) (line : List UInt8) :
    Replied handler s line (s.serve handler (some line)) := by
  have hbumped := bumped.eq_1 s.counters line
  rw [Session.serve]
  cases h : parseRequest line with
  | ok request =>
    rw [h] at hbumped
    have hgood : ¬IsBad line := fun ⟨e, he, _⟩ => by
      rw [h] at he
      cases he
    have hversion : ¬WrongVersion line := by
      rw [← parseRequest_badVersion, h]
      exact nofun
    refine replied_reply hopen rfl ?_ ?_ hbumped.symm hversion ?_
    · rw [repliesTo, h]
      rw [hbumped]
      rfl
    · simp [requestsOf, h, Except.toOption]
    · rw [runAfter, if_neg hgood]
  | error e =>
    rw [h] at hbumped
    cases e with
    | tooLong => exact replied_badLine hopen h nofun hbumped rfl
    | malformed => exact replied_badLine hopen h nofun hbumped rfl
    | unknownCommand => exact replied_badLine hopen h nofun hbumped rfl
    | badVersion =>
      have hgood : ¬IsBad line := fun hbad => (isBad_iff h).mp hbad rfl
      refine ⟨?_, ?_, ?_, iff_of_true rfl (.inl (parseRequest_badVersion.mp h)), nofun⟩
      · simp only [repliesTo, h, refusal]
      · simp [requestsOf, h, Except.toOption]
      · rw [runAfter, if_neg hgood, counted, if_neg (by decide), hbumped]

/-- The counters after lines, without those of the end of the connection. -/
def countersAfter (stats : ControlStats) (lines : List (List UInt8)) : ControlStats :=
  lines.foldl bumped stats

theorem length_repliesTo (handler : Handler) (k : ℕ) (stats : ControlStats)
    (lines : List (List UInt8)) : (repliesTo handler k stats lines).length = lines.length := by
  induction lines generalizing k stats with
  | nil => rfl
  | cons line lines ih =>
    rw [repliesTo]
    split <;> rw [List.length_cons, List.length_cons, ih]

theorem repliesTo_append (handler : Handler) (k : ℕ) (stats : ControlStats)
    (before after : List (List UInt8)) : repliesTo handler k stats (before ++ after) =
      repliesTo handler k stats before ++
        repliesTo handler (k + (requestsOf before).length) (countersAfter stats before) after := by
  induction before generalizing k stats with
  | nil => rfl
  | cons line before ih =>
    rw [List.cons_append, repliesTo, repliesTo, requestsOf, List.filterMap_cons, countersAfter,
      List.foldl_cons]
    cases h : parseRequest line with
    | ok request =>
      simp only [Except.toOption, List.cons_append, List.length_cons, ih]
      rw [Nat.add_right_comm k 1]
      rfl
    | error e =>
      simp only [Except.toOption, List.cons_append, ih]
      rfl

theorem badRun_concat (lines : List (List UInt8)) (line : List UInt8) :
    badRun (lines ++ [line]) = runAfter (badRun lines) line := by
  rw [badRun, Trace.runAtEnd_concat, runAfter]
  by_cases h : IsBad line
  · simp [h, badRun]
  · simp [h]

theorem closes_concat (lines : List (List UInt8)) (line : List UInt8) :
    Closes (lines ++ [line]) ↔ WrongVersion line ∨ 16 ≤ runAfter (badRun lines) line := by
  rw [Closes, badRun_concat]
  simp

/-- What the first `n` of the lines have made of a connection. -/
structure Served (handler : Handler) (counters : ControlStats) (lines : List (List UInt8))
    (s : Session) (n : ℕ) : Prop where
  le : n ≤ lines.length
  replies : s.replies = repliesTo handler 0 counters (lines.take n)
  handed : s.handed = requestsOf (lines.take n)
  earlier : ∀ m < n, ¬Closes (lines.take m)
  closed : s.closed = true ↔ Closes (lines.take n)
  whole : s.closed = false → n = lines.length
  counters : s.counters = counted (badRun (lines.take n)) (countersAfter counters (lines.take n))
  run : s.closed = false → s.consecutiveBad = badRun lines

variable {counters : ControlStats} {lines : List (List UInt8)} {s : Session} {n : ℕ}

/-- The line after those of an open connection. -/
theorem Served.next (h : Served handler counters lines s n) (hopen : s.closed = false)
    (line : List UInt8) :
    Served handler counters (lines ++ [line]) (s.serve handler (some line)) (n + 1) := by
  obtain ⟨hreplies, hhanded, hcounters, hclosed, hrun⟩ := @serve_spec handler s hopen line
  obtain rfl := h.whole hopen
  have htake : (lines ++ [line]).take (lines.length + 1) = lines ++ [line] :=
    List.take_of_length_le (by simp)
  have hlines : lines.take lines.length = lines := List.take_length
  have hlow : ¬16 ≤ badRun lines := by
    intro hmany
    have hcloses := h.closed.mpr (hlines.symm ▸ .inr hmany)
    rw [hopen] at hcloses
    cases hcloses
  have hbefore : s.counters = countersAfter counters lines := by
    have hcounted := h.counters
    rw [hlines, counted, if_neg hlow] at hcounted
    exact hcounted
  have hsoFar := h.run hopen
  refine ⟨by simp, ?_, ?_, ?_, ?_, ?_, ?_, ?_⟩
  · rw [htake, repliesTo_append, hreplies, h.replies, hlines, Nat.zero_add, h.handed, hlines,
      hbefore]
  · rw [htake, hhanded, h.handed, hlines, requestsOf, requestsOf, requestsOf,
      List.filterMap_append]
  · intro m hm
    rw [List.take_append_of_le_length (by omega)]
    by_cases hlast : m < lines.length
    · exact h.earlier m hlast
    · obtain rfl : m = lines.length := by omega
      exact fun hcloses => absurd (h.closed.mpr hcloses) (by simp [hopen])
  · rw [htake, closes_concat, hclosed, hsoFar]
  · intro _
    simp
  · rw [htake, badRun_concat, hcounters, hsoFar, hbefore, countersAfter, countersAfter,
      List.foldl_append]
    rfl
  · intro hstill
    rw [badRun_concat, hrun hstill, hsoFar]

theorem Served.over (h : Served handler counters lines s n) (hclosed : s.closed = true)
    (line : List UInt8) : Served handler counters (lines ++ [line]) s n := by
  have htake {m : ℕ} (hm : m ≤ n) : (lines ++ [line]).take m = lines.take m :=
    List.take_append_of_le_length (Nat.le_trans hm h.le)
  have hle := h.le
  refine ⟨by simp; omega, ?_, ?_, ?_, ?_, by simp [hclosed], ?_, by simp [hclosed]⟩
  · rw [htake (Nat.le_refl n), h.replies]
  · rw [htake (Nat.le_refl n), h.handed]
  · intro m hm
    rw [htake (Nat.le_of_lt hm)]
    exact h.earlier m hm
  · rw [htake (Nat.le_refl n), h.closed]
  · rw [htake (Nat.le_refl n), h.counters]

/-- Lines are served one after the other until the connection is closed. -/
theorem served_all (handler : Handler) (counters : ControlStats) (lines : List (List UInt8)) :
    ∃ n, Served handler counters lines ((Session.init counters).serveAll handler lines) n := by
  induction lines using List.reverseRecOn with
  | nil =>
    refine ⟨0, Nat.le_refl 0, rfl, rfl, nofun, iff_of_false nofun ?_, fun _ => rfl, rfl,
      fun _ => rfl⟩
    simp [Closes, badRun, Trace.runAtEnd]
  | append_singleton lines line ih =>
    obtain ⟨n, h⟩ := ih
    rw [Session.serveAll, List.foldl_append, List.foldl_cons, List.foldl_nil]
    by_cases hclosed : ((Session.init counters).serveAll handler lines).closed = true
    · exact ⟨n, (if_pos hclosed).symm ▸ h.over hclosed line⟩
    · exact ⟨n + 1, (if_neg hclosed).symm ▸ h.next (by simpa using hclosed) line⟩

theorem answered_bumped (stats : ControlStats) (line : List UInt8) :
    (bumped stats line).answered = stats.answered + 1 := by
  unfold bumped ControlStats.answered
  split <;> dsimp only <;> ac_rfl

theorem answered_countersAfter (stats : ControlStats) (lines : List (List UInt8)) :
    (countersAfter stats lines).answered = stats.answered + UInt64.ofNat lines.length := by
  induction lines generalizing stats with
  | nil => exact (UInt64.add_zero _).symm
  | cons line lines ih =>
    rw [countersAfter, List.foldl_cons]
    refine (ih _).trans ?_
    rw [answered_bumped, List.length_cons, UInt64.ofNat_add]
    change stats.answered + 1 + _ = stats.answered + (_ + 1)
    ac_rfl

/-- The client's lines are answered one by one, each by its own reply, up to the first after which
the connection closes: one of another version, or the sixteenth bad one in a row. -/
theorem serve_connection_exact (handler : Handler) (counters : ControlStats)
    (reads : List ReadResult) :
    let c := serveConnection handler (.init counters) reads
    let lines := terminatedLines (received reads)
    (∃ n ≤ lines.length, c.session.replies = repliesTo handler 0 counters (lines.take n) ∧
        c.session.replies.length = n ∧ c.session.handed = requestsOf (lines.take n) ∧
        (∀ m < n, ¬Closes (lines.take m)) ∧
        (c.session.closed = true ↔ Closes (lines.take n)) ∧
        (c.session.closed = false → n = lines.length) ∧
        c.session.counters =
          counted (badRun (lines.take n)) ((lines.take n).foldl bumped counters) ∧
        c.session.counters.answered = counters.answered + UInt64.ofNat n) ∧
      c.lines.line.length ≤ 512 ∧
      (∀ line request, parseRequest line = .ok request ↔ Requests line request) ∧
      (∀ line, parseRequest line = .error .tooLong ↔ 512 < line.length) ∧
      ∀ line, parseRequest line = .error .badVersion ↔ WrongVersion line := by
  intro c lines
  have hc : c = (Connection.init counters).pushAll handler (received reads) :=
    serveConnection_received ..
  obtain ⟨hpushed, hlength⟩ := @pushAll_lines handler (.init counters) _ (holds_init _)
    (received reads)
  have hsession : c.session = (Session.init counters).serveAll handler lines := hc ▸ hpushed
  obtain ⟨n, h⟩ := served_all handler counters lines
  rw [← hsession] at h
  refine ⟨⟨n, h.le, h.replies, ?_, h.handed, h.earlier, h.closed, h.whole, h.counters, ?_⟩,
    hc ▸ hlength, fun _ _ => parseRequest_ok, fun _ => parseRequest_tooLong,
    fun _ => parseRequest_badVersion⟩
  · rw [h.replies, length_repliesTo, List.length_take, Nat.min_eq_left h.le]
  · have hanswered := answered_countersAfter counters (lines.take n)
    rw [List.length_take, Nat.min_eq_left h.le] at hanswered
    rw [h.counters]
    exact hanswered

end CydMonitor.ControlIpc
