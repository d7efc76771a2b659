import CydMonitor.Lib.GuardedRun
import CydMonitor.Wifi.LineReader
import CydMonitor.Wifi.Tracker

/-!
# The provider socket of the daemon

`host/platform-macos/src/wifi_context_server.rs`. The server keeps a log of what it did with every
line and connection; a connection is named by the number of those accepted before it.
-/

namespace CydMonitor.Wifi

def maxMessagesPerSecond : ℕ := 20
def maxConsecutiveBad : ℕ := 16

/-- In nanoseconds, the unit of the clock that the rate is limited by. -/
def second : ℕ := 1000000000

/-- A connection's parsing state; `recent` is the front of the queue first. -/
structure ServedConnection where
  lines : LineReader
  order : Connection
  consecutiveBad : ℕ
  recent : List ℕ
  deriving DecidableEq

structure Stats where
  accepted : ℕ
  replaced : ℕ
  wrongUid : ℕ
  malformed : ℕ
  oversized : ℕ
  outOfOrder : ℕ
  rateLimited : ℕ
  badVersion : ℕ
  closedForBadLines : ℕ
  applied : ℕ
  deriving DecidableEq

inductive Verdict where
  | keep | close
  deriving DecidableEq

/-- What became of a line; `misplaced`: data before a hello, or a second hello. -/
inductive Fate where
  | applied (message : ProviderMessage) (acknowledged : Bool) (nowMs : ℕ)
  | oversized | rateLimited | unsupported | malformed | misplaced | outOfOrder
  deriving DecidableEq

/-- A byte, and what the handling of a line that it ends would read and meet. -/
structure Incoming where
  byte : UInt8
  atNs : ℕ
  nowMs : ℕ
  acknowledged : Bool
  deriving DecidableEq

structure Handled where
  verdict : Verdict
  conn : ServedConnection
  tracker : ContextTracker
  stats : Stats
  fate : Option Fate
  deriving DecidableEq

def ProviderMessage.isHello : ProviderMessage → Bool
  | .hello .. => true
  | .permissionStatus .. | .context .. => false

/-- Sequence numbers rise, and the provider's clock does not run backwards. -/
def Connection.ordered (conn : Connection) : ProviderMessage → Bool
  | .hello .. => true
  | .permissionStatus seq _ => conn.follows seq
  | .context seq tMs _ _ => conn.follows seq && decide (conn.lastTMs ≤ tMs)

namespace ServedConnection

def init : ServedConnection :=
  { lines := .init kMaxLineBytes, order := .accepted, consecutiveBad := 0, recent := [] }

def badLine (conn : ServedConnection) (tracker : ContextTracker) (stats : Stats) (fate : Fate) :
    Handled :=
  let conn := { conn with consecutiveBad := conn.consecutiveBad + 1 }
  if maxConsecutiveBad ≤ conn.consecutiveBad then
    { verdict := .close, conn, tracker, fate
      stats := { stats with closedForBadLines := stats.closedForBadLines + 1 } }
  else { verdict := .keep, conn, tracker, stats, fate }

/-- A message whose turn it is. -/
def apply (conn : ServedConnection) (tracker : ContextTracker) (stats : Stats)
    (message : ProviderMessage) (i : Incoming) : Handled :=
  let fate := some (.applied message i.acknowledged i.nowMs)
  let applied := { stats with applied := stats.applied + 1 }
  match message with
  | .hello .. =>
    { verdict := if i.acknowledged then .keep else .close
      conn := { conn with consecutiveBad := 0, order.helloSeen := true }
      tracker := tracker.onConnected
      stats, fate }
  | .permissionStatus seq status =>
    { verdict := .keep
      conn := { conn with consecutiveBad := 0, order.lastSeq := some seq }
      tracker := tracker.onPermission status
      stats := applied, fate }
  | .context seq tMs ageMs context =>
    { verdict := .keep
      conn := { conn with consecutiveBad := 0, order.lastSeq := some seq, order.lastTMs := tMs }
      tracker := tracker.onContext context ageMs i.nowMs
      stats := applied, fate }

def dispatch (conn : ServedConnection) (tracker : ContextTracker) (stats : Stats)
    (message : ProviderMessage) (i : Incoming) : Handled :=
  let firstIsHello := message.isHello != conn.order.helloSeen
  if !firstIsHello then
    conn.badLine tracker { stats with malformed := stats.malformed + 1 } .misplaced
  else if !conn.order.ordered message then
    conn.badLine tracker { stats with outOfOrder := stats.outOfOrder + 1 } .outOfOrder
  else conn.apply tracker stats message i

/-- The parse of a line within the rate. -/
def parseLine (conn : ServedConnection) (tracker : ContextTracker) (stats : Stats)
    (line : List UInt8) (i : Incoming) : Handled :=
  match parseProviderMessage line with
  | .ok message => conn.dispatch tracker stats message i
  | .error .badVersion =>
    { verdict := .close, conn, tracker, fate := some .unsupported
      stats := { stats with badVersion := stats.badVersion + 1 } }
  | .error _ => conn.badLine tracker { stats with malformed := stats.malformed + 1 } .malformed

def handleLine (conn : ServedConnection) (tracker : ContextTracker) (stats : Stats)
    (line : List UInt8) (i : Incoming) : Handled :=
  let recent := conn.recent.dropWhile fun t => decide (second ≤ i.atNs - t)
  if maxMessagesPerSecond ≤ recent.length then
    { verdict := .keep, conn := { conn with recent }, tracker, fate := some .rateLimited
      stats := { stats with rateLimited := stats.rateLimited + 1 } }
  else { conn with recent := recent ++ [i.atNs] }.parseLine tracker stats line i

def feed (conn : ServedConnection) (tracker : ContextTracker) (stats : Stats) (i : Incoming) :
    Handled :=
  match conn.lines.push i.byte with
  | (.pending, lines) | (.oversizedEnd, lines) =>
    { verdict := .keep, conn := { conn with lines }, tracker, stats, fate := none }
  | (.overflowed, lines) =>
    { conn with lines }.badLine tracker { stats with oversized := stats.oversized + 1 } .oversized
  | (.line line, lines) =>
    if line.isEmpty then
      { verdict := .keep, conn := { conn with lines }, tracker, stats, fate := none }
    else { conn with lines }.handleLine tracker stats line i

end ServedConnection

/-- `itself`: the server closed a connection for what it said. -/
inductive ServerEvent where
  | opened (connection : ℕ)
  | line (connection : ℕ) (fate : Fate) (atNs : ℕ)
  | closed (connection : ℕ) (itself saidHello : Bool)
  deriving DecidableEq

structure ContextServer where
  current : Option ServedConnection
  tracker : ContextTracker
  stats : Stats
  running : Bool
  connections : ℕ
  clockNs : ℕ
  log : List ServerEvent
  deriving DecidableEq

inductive ServerAction where
  | accept (sameUid prepared : Bool)
  | read (bytes : List Incoming)
  | hangUp
  | stop
  deriving DecidableEq

namespace ContextServer

def init : ContextServer :=
  { current := none, tracker := .init, running := true, connections := 0, clockNs := 0, log := []
    stats :=
      { accepted := 0, replaced := 0, wrongUid := 0, malformed := 0, oversized := 0,
        outOfOrder := 0, rateLimited := 0, badVersion := 0, closedForBadLines := 0,
        applied := 0 } }

def close (s : ContextServer) (conn : ServedConnection) (itself : Bool) : ContextServer :=
  { s with
    current := none
    tracker := if conn.order.helloSeen then s.tracker.onDisconnected else s.tracker
    log := s.log ++ [.closed s.connections itself conn.order.helloSeen] }

def closeCurrent (s : ContextServer) : ContextServer :=
  match s.current with
  | some conn => s.close conn false
  | none => s

/-- The connection that is being replaced. -/
def replace (s : ContextServer) : ContextServer :=
  match s.current with
  | some conn =>
    { s with stats := { s.stats with replaced := s.stats.replaced + 1 } }.close conn false
  | none => s

def serve (s : ContextServer) : ContextServer :=
  { s with
    current := some .init
    connections := s.connections + 1
    log := s.log ++ [.opened (s.connections + 1)] }

def accept (s : ContextServer) (sameUid prepared : Bool) : ContextServer :=
  if !sameUid then { s with stats := { s.stats with wrongUid := s.stats.wrongUid + 1 } }
  else if !prepared then s
  else { s with stats := { s.stats with accepted := s.stats.accepted + 1 } }.replace.serve

/-- What a byte of the current connection does, before its verdict is followed. -/
def feed (s : ContextServer) (conn : ServedConnection) (i : Incoming) : ContextServer :=
  let h := conn.feed s.tracker s.stats i
  { s with
    current := some h.conn
    tracker := h.tracker
    stats := h.stats
    clockNs := i.atNs
    log := s.log ++ (h.fate.map fun fate => .line s.connections fate i.atNs).toList }

/-- A byte, and the end of the connection where its line was the last one. -/
def receive (s : ContextServer) (conn : ServedConnection) (i : Incoming) : ContextServer :=
  match (conn.feed s.tracker s.stats i).verdict with
  | .keep => s.feed conn i
  | .close => (s.feed conn i).close (conn.feed s.tracker s.stats i).conn true

/-- The bytes of a read; what follows the end of the connection is dropped. -/
def read (s : ContextServer) : List Incoming → ContextServer
  | [] => s
  | i :: is =>
    match s.current with
    | some conn => read (s.receive conn i) is
    | none => s

/-- `none`: the action is not possible. The clock of the rate limit does not go back. -/
def step (s : ContextServer) (a : ServerAction) : Option ContextServer :=
  if !s.running then none
  else
    match a with
    | .accept sameUid prepared => some (s.accept sameUid prepared)
    | .read bytes =>
      if s.current.isSome ∧ (s.clockNs :: bytes.map (·.atNs)).Pairwise (· ≤ ·) then
        some (s.read bytes)
      else none
    | .hangUp => if s.current.isSome then some s.closeCurrent else none
    | .stop => some { s.closeCurrent with running := false }

end ContextServer

end CydMonitor.Wifi
