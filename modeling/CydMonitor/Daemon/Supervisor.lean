import CydMonitor.Control.Requests
import CydMonitor.Control.Responses
import CydMonitor.Transport.Client
import CydMonitor.Wifi.Provider

/-!
# The daemon's supervisor (`host/hostcore/src/daemon.rs`)

One turn of `Supervisor::run` is a function of what the world answers in it: the ports that are
seen, the identity file, the port's opening, what the handshake reports and what is served.
-/

namespace CydMonitor.Daemon

open ControlIpc (Request okResponse errorResponse)
open Transport (Refusal)
open Text (utf8 decimal)

abbrev Port := List UInt8

inductive LinkState where
  | noDevice | deviceFound | pairingRequired | pairedConnected | stale
  deriving DecidableEq

def LinkState.name : LinkState → List Char
  | .noDevice => "no_device".toList
  | .deviceFound => "device_found".toList
  | .pairingRequired => "pairing_required".toList
  | .pairedConnected => "paired_connected".toList
  | .stale => "stale".toList

inductive LinkError where
  | io (error : List Char)
  | refused (refusal : Refusal)
  | timeout (what : List Char)
  | cancelled
  deriving DecidableEq

/-- `{other:?}` -/
def debug : Refusal → List Char
  | .incompatible => "Incompatible".toList
  | .notPairedWithYou => "NotPairedWithYou".toList
  | .declined => "Declined".toList
  | .badRequest => "BadRequest".toList
  | .unknown code => "Unknown(".toList ++ decimal code.toNat ++ ")".toList

/-- `impl Display for LinkError` -/
def LinkError.display : LinkError → List Char
  | .io e => "serial error: ".toList ++ e
  | .refused .incompatible => "the display speaks an incompatible protocol version".toList
  | .refused .notPairedWithYou =>
    ("the display is paired with another Mac; unpair it from that Mac, or send " ++
      "DEV:UNPAIR on its console").toList
  | .refused .declined => "pairing was declined or timed out on the display".toList
  | .refused other => "the display refused the request (".toList ++ debug other ++ ")".toList
  | .timeout what => "timed out ".toList ++ what
  | .cancelled => "stopped".toList

structure LinkStatus where
  state : LinkState := .noDevice
  detail : Option (List Char) := none
  port : Option Port := none
  pairingCode : Option UInt32 := none
  pairingIdentity : Option (List Char) := none
  sessions : UInt64 := 0
  deriving DecidableEq

structure Shared where
  link : LinkStatus := {}
  lastSnapshotUtcMs : Option UInt64 := none
  lastSnapshotMs : Option UInt64 := none
  snapshots : UInt64 := 0
  groups : List (List Char × List Char) := []
  deriving DecidableEq

structure PairControl where
  requested : Bool := false
  port : Option Port := none
  /-- A port whose last attempt ended in a refusal. -/
  parked : Option Port := none

/-- `identity::Identity` -/
structure Identity where
  host : Rust.Identity
  device : Option Rust.Identity

/-- What the identity file reads as when it is cut after its first `n` bytes: the line of the
host has 37 of them, and the line of the device ends after 77. -/
def Identity.cut (n : ℕ) (id : Identity) : Option Identity :=
  if n < 37 then none else some { id with device := if n < 77 then none else id.device }

/-- What the supervisor does, in order. -/
inductive Act where
  /-- The discovery sees no port. -/
  | sawNone
  /-- The identity file is written, whole or cut: the device it reads as from then on. -/
  | wrote (device : Option Rust.Identity)
  /-- `opener.open`, with the device of the identity that was loaded. -/
  | opened (port : Port) (known : Option Rust.Identity)
  /-- A `pair_start` is accepted. -/
  | asked
  | cancelled
  /-- The handshake ends with a paired device. -/
  | met (device : Rust.Identity)
  | connected (device : Rust.Identity)
  /-- `connect_with` fails. -/
  | failed (port : Port) (error : LinkError)
  /-- `serve` fails. -/
  | broke (port : Port) (error : LinkError)
  /-- The link ends because the display was unpaired over it. -/
  | unpaired (port : Port)
  | forgot
  deriving DecidableEq

structure Supervisor where
  /-- `config.port` -/
  port : Option Port
  shared : Shared := {}
  pair : PairControl := {}
  /-- What the identity file reads as when it can be read. -/
  file : Option Identity
  running : Bool := true
  /-- The lines of the log. -/
  lines : List (List UInt8) := []
  /-- The commands that were received, with their replies. -/
  replies : List (Request × List Char) := []
  acts : List Act := []
  /-- Every state of `shared` that a status request can see. -/
  views : List Shared := []

/-- The outcome of `identity::save_in`. -/
inductive Save where
  | done
  /-- The file is as it was, or cut after its first bytes. -/
  | failed (error : List Char) (cut : Option ℕ)

/-- The state directory's answers: whether the identity file can be read, the random bytes of a
fresh identity with its save, and a later save. -/
structure Disk where
  reads : Bool
  create : Except (List Char) (Rust.Identity × Save)
  save : Save

/-- What a connection attempt reports (`link::Progress`). -/
inductive Progress where
  | opened
  | negotiated (major minor : UInt8)
  | awaitingConfirmation (code : UInt32)
  | paired

/-- What happens during an attempt: a report, or a poll of `cancel`. -/
inductive Happening where
  | progress (p : Progress)
  | poll (stopped : Bool) (commands : List Request)

inductive ServeEnd where
  | stopped | resync | unpaired
  deriving DecidableEq

/-- What happens while a link is served. -/
inductive Service where
  | snapshot (nowMs utcMs : UInt64) (groups : List (List Char × List Char))
  | poll (stopped : Bool) (command : Option Request)
      (result : Except LinkError Rust.CommandResult)

/-- The answers of one turn. -/
structure Turn where
  stopped : Bool := false
  candidates : List Port
  present : Port → Bool
  load : Disk
  /-- The command that ends the turn's wait. -/
  idle : Option (Request × Disk)
  opening : Except (List Char) Unit
  attempt : List Happening
  handshake : Except LinkError Rust.Identity
  save : Save
  service : List Service
  /-- How a link ends that neither the flag nor an unpair ends: a sleep or an error. -/
  broken : Except LinkError Unit
  forgetting : Disk

namespace Supervisor

def act (a : Act) (s : Supervisor) : Supervisor := { s with acts := s.acts ++ [a] }

def line (text : List UInt8) (s : Supervisor) : Supervisor := { s with lines := s.lines ++ [text] }

/-- A locked section of `shared` ends. -/
def publish (shared : Shared) (s : Supervisor) : Supervisor :=
  { s with shared, views := s.views ++ [shared] }

def reply (command : Request) (response : List Char) (s : Supervisor) : Supervisor :=
  { s with replies := s.replies ++ [(command, response)] }

/-- The line of a change. -/
def linkLine (state : LinkState) (detail : Option (List Char)) (port : Option Port) :
    List UInt8 :=
  utf8 ("link ".toList ++ state.name) ++ (port.elim [] fun p => utf8 " on ".toList ++ p) ++
    (detail.elim [] fun d => utf8 (": ".toList ++ d))

def setLink (state : LinkState) (detail : Option (List Char)) (port : Option Port)
    (code : Option UInt32) (s : Supervisor) : Supervisor :=
  let changed := s.shared.link.state ≠ state ∨ s.shared.link.detail ≠ detail ∨
    s.shared.link.port ≠ port
  let next := s.publish { s.shared with
    link := { s.shared.link with state, detail, port, pairingCode := code },
    groups := if state ≠ .pairedConnected then [] else s.shared.groups }
  if changed then next.line (linkLine state detail port) else next

/-- `identity::short_form` -/
def shortForm (identity : Rust.Identity) : List Char :=
  (identity.val.take 4).flatMap Wifi.hexByte

def setIdentity (device : Option Rust.Identity) (s : Supervisor) : Supervisor :=
  s.publish { s.shared with
    link := { s.shared.link with pairingIdentity := device.map shortForm } }

/-- The identity file is written. -/
def write (file : Option Identity) (s : Supervisor) : Supervisor :=
  { s with file }.act (.wrote (file.bind Identity.device))

/-- `identity::save_in` -/
def saveIn (save : Save) (id : Identity) (s : Supervisor) : Except (List Char) Unit × Supervisor :=
  match save with
  | .done => (.ok (), s.write (some id))
  | .failed e none => (.error e, s)
  | .failed e (some n) => (.error e, s.write (id.cut n))

/-- `identity::load_or_create_in` -/
def loadOrCreate (disk : Disk) (s : Supervisor) : Except (List Char) Identity × Supervisor :=
  match if disk.reads then s.file else none with
  | some id => (.ok id, s)
  | none =>
    match disk.create with
    | .error e => (.error e, s)
    | .ok (host, save) =>
      match s.saveIn save { host, device := none } with
      | (.error e, s) => (.error e, s)
      | (.ok (), s) => (.ok { host, device := none }, s)

def forget (disk : Disk) (s : Supervisor) : Except (List Char) Unit × Supervisor :=
  match s.loadOrCreate disk with
  | (.error e, s) => (.error e, s)
  | (.ok id, s) =>
    match s.saveIn disk.save { id with device := none } with
    | (.error e, s) => (.error e, s)
    | (.ok (), s) =>
      let s := s.setIdentity none
      let s := { s with pair := { s.pair with parked := none } }
      (.ok (), (s.act .forgot).line (utf8 "forgot the stored display".toList))

/-- A command that arrives with no live link. -/
def handleIdle (command : Request) (disk : Disk) (s : Supervisor) : Supervisor :=
  match command with
  | .pairStart port =>
    match s.loadOrCreate disk with
    | (.ok id, s) =>
      if id.device.isSome then
        s.reply command (errorResponse "already_paired".toList
          "a display is already paired; unpair it first".toList)
      else
        let s := { s with pair := { requested := true, port, parked := none } }
        (s.act .asked).reply command (okResponse "pair_start".toList none)
    | (.error e, s) => s.reply command (errorResponse "identity".toList e)
  | .pairCancel =>
    let s := { s with pair := { s.pair with requested := false, port := none } }
    (s.act .cancelled).reply command (okResponse "pair_cancel".toList none)
  | .forget =>
    match s.forget disk with
    | (.ok (), s) => s.reply command (okResponse "forget".toList none)
    | (.error e, s) => s.reply command (errorResponse "identity".toList e)
  | _ => s.reply command (errorResponse "not_connected".toList
      "no paired display is connected".toList)

/-- The wait handles one command at most. -/
def idleWait (arrives : Option (Request × Disk)) (s : Supervisor) : Supervisor :=
  match arrives with
  | none => s
  | some (command, disk) => s.handleIdle command disk

inductive PortChoice where
  | none
  | ambiguous (n : ℕ)
  | one (port : Port)

def pickPort (w : Turn) (s : Supervisor) : PortChoice :=
  match s.pair.port <|> s.port with
  | some port => if w.present port then .one port else .none
  | none =>
    match w.candidates with
    | [] => .none
    | [port] => .one port
    | found => .ambiguous found.length

/-- The loop of `cancel` over the commands that wait. -/
def cancels : List Request → Supervisor → Bool × Supervisor
  | [], s => (false, s)
  | .pairCancel :: _, s =>
    let s := { s with pair := { s.pair with requested := false, port := none } }
    (true, (s.act .cancelled).reply .pairCancel (okResponse "pair_cancel".toList none))
  | command :: commands, s =>
    cancels commands (s.reply command (errorResponse "busy".toList
      "a connection attempt is in progress".toList))

/-- `progress` -/
def report (port : Port) (s : Supervisor) : Progress → Supervisor
  | .opened | .negotiated _ _ =>
    s.setLink .deviceFound (some "connecting".toList) (some port) none
  | .awaitingConfirmation code =>
    s.setLink .pairingRequired (some "confirm the matching code on the display".toList)
      (some port) (some code)
  | .paired => s

/-- What an attempt reports, until `cancel` abandons it: was it abandoned, and the state then. -/
def attempt (port : Port) : List Happening → Supervisor → Bool × Supervisor
  | [], s => (false, s)
  | .progress p :: rest, s => attempt port rest (s.report port p)
  | .poll stopped commands :: rest, s =>
    if stopped then (true, s)
    else
      match s.cancels commands with
      | (true, s) => (true, s)
      | (false, s) => attempt port rest s

/-- `Link::connect_with`, with the identity it leaves. -/
def connect (port : Port) (id : Identity) (w : Turn) (s : Supervisor) :
    Except LinkError Identity × Supervisor :=
  match attempt port w.attempt s with
  | (true, s) => (.error .cancelled, s)
  | (false, s) =>
    match w.handshake with
    | .error e => (.error e, s)
    | .ok device =>
      let s := s.act (.met device)
      if id.device ≠ some device then
        match s.saveIn w.save { id with device := some device } with
        | (.error e, s) => (.error (.io e), s)
        | (.ok (), s) => (.ok { id with device := some device }, s.act (.connected device))
      else (.ok id, s.act (.connected device))

def afterFailedConnect (error : LinkError) (port : Port) (idle : Option (Request × Disk))
    (s : Supervisor) : Supervisor :=
  let s := s.act (.failed port error)
  match error with
  | .cancelled => s
  | .io e =>
    (s.setLink .stale (some ("serial error: ".toList ++ e)) (some port) none).idleWait idle
  | .refused .incompatible =>
    let s := s.setLink .deviceFound
      (some "the display speaks an incompatible protocol version".toList) (some port) none
    { s with pair := { s.pair with parked := some port } }
  | other =>
    let pairing := other = .refused .notPairedWithYou ∨ other = .refused .declined ∨
      other = .timeout "waiting for the display to pair".toList
    let s := s.setLink (if pairing then .pairingRequired else .stale) (some other.display)
      (some port) none
    { s with pair := { requested := false, port := none, parked := some port } }

/-- `Observer::on_snapshot` -/
def onSnapshot (nowMs utcMs : UInt64) (groups : List (List Char × List Char)) (s : Supervisor) :
    Supervisor :=
  s.publish { s.shared with
    snapshots := s.shared.snapshots + 1, lastSnapshotMs := some nowMs,
    lastSnapshotUtcMs := some utcMs, groups }

/-- `Observer::on_command` -/
def onCommand (command : Request) (name : List Char)
    (result : Except LinkError Rust.CommandResult) (s : Supervisor) : Supervisor :=
  s.reply command (match result with
    | .ok .applied | .ok .alreadyApplied => okResponse name none
    | .ok .rejected => errorResponse "rejected".toList "the display rejected the command".toList
    | .error e => errorResponse "link_error".toList e.display)

/-- `Link::serve` with the supervisor's observer. -/
def serve (broken : Except LinkError Unit) : List Service → Supervisor →
    Except LinkError ServeEnd × Supervisor
  | [], s => (broken.map fun _ => .resync, s)
  | .snapshot nowMs utcMs groups :: rest, s => serve broken rest (s.onSnapshot nowMs utcMs groups)
  | .poll stopped command result :: rest, s =>
    if stopped then (.ok .stopped, s)
    else
      match command with
      | none => serve broken rest s
      | some .unpair =>
        let s := s.onCommand .unpair "unpair".toList result
        match result with
        | .ok .applied | .ok .alreadyApplied => (.ok .unpaired, s)
        | _ => serve broken rest s
      | some .resetCalibration =>
        serve broken rest (s.onCommand .resetCalibration "reset_calibration".toList result)
      | some .pairCancel =>
        serve broken rest (s.reply .pairCancel (okResponse "pair_cancel".toList none))
      | some .forget =>
        serve broken rest (s.reply .forget (errorResponse "paired_connected".toList
          "unpair the connected display instead".toList))
      | some other =>
        serve broken rest (s.reply other (errorResponse "already_paired".toList
          "a display is already paired".toList))

/-- The end of the thread. -/
def finish (s : Supervisor) : Supervisor :=
  { s.setLink .noDevice (some "daemon stopped".toList) none none with running := false }

/-- What `run` does with the outcome of a link. -/
def afterServe (outcome : Except LinkError ServeEnd) (port : Port) (w : Turn) (s : Supervisor) :
    Supervisor :=
  match outcome with
  | .ok .stopped => s.finish
  | .ok .resync =>
    s.setLink .stale (some "resynchronizing after sleep/wake".toList) (some port) none
  | .ok .unpaired =>
    let s := match s.forget w.forgetting with
      | (.ok (), s) => s
      | (.error e, s) => s.line (utf8 ("cannot forget the display: ".toList ++ e))
    let s := s.setLink .pairingRequired (some "unpaired; start pairing to use a display".toList)
      (some port) none
    { s with pair := { s.pair with parked := some port } }.act (.unpaired port)
  | .error error =>
    let s := (s.act (.broke port error)).setLink .stale (some error.display) (some port) none
    match error with
    | .refused _ => { s with pair := { s.pair with parked := some port } }
    | _ => s.idleWait w.idle

/-- An open port: the handshake, and the link that comes of it. -/
def useChannel (port : Port) (id : Identity) (w : Turn) (s : Supervisor) : Supervisor :=
  let s := s.publish { s.shared with
    link := { s.shared.link with sessions := s.shared.link.sessions + 1 } }
  match s.connect port id w with
  | (.error error, s) => s.afterFailedConnect error port w.idle
  | (.ok id, s) =>
    let s := { s with pair := { s.pair with requested := false, port := none } }
    let s := (s.setIdentity id.device).setLink .pairedConnected none (some port) none
    match serve w.broken w.service s with
    | (outcome, s) => s.afterServe outcome port w

/-- A port that is to be used, with the identity on disk. -/
def usePort (port : Port) (id : Identity) (w : Turn) (s : Supervisor) : Supervisor :=
  let s := s.setIdentity id.device
  if s.pair.parked = some port then s.idleWait w.idle
  else if id.device.isNone ∧ !s.pair.requested then
    (s.setLink .pairingRequired (some "a display is attached; start pairing to use it".toList)
      (some port) none).idleWait w.idle
  else
    let s := s.setLink .deviceFound (some "connecting".toList) (some port) none
    let s := s.act (.opened port id.device)
    match w.opening with
    | .error e =>
      (s.setLink .stale (some ("cannot open the port: ".toList ++ e)) (some port) none).idleWait
        w.idle
    | .ok () => s.useChannel port id w

/-- One turn of the loop of `run`. -/
def turn (s : Supervisor) (w : Turn) : Supervisor :=
  if !s.running then s
  else if w.stopped then s.finish
  else
    match s.pickPort w with
    | .none =>
      let s := ({ s with pair := { s.pair with parked := none } }).act .sawNone
      (s.setLink .noDevice none none none).idleWait w.idle
    | .ambiguous n =>
      (s.setLink .deviceFound (some (decimal n ++
        " candidate devices; name one with --port or pair_start".toList)) none none).idleWait
        w.idle
    | .one port =>
      match s.loadOrCreate w.load with
      | (.error e, s) =>
        (s.setLink .stale (some ("cannot read the pairing identity: ".toList ++ e)) (some port)
          none).idleWait w.idle
      | (.ok id, s) => s.usePort port id w

/-- The thread before its first turn. -/
def boot (port : Option Port) (file : Option Identity) : Supervisor :=
  { port, file, views := [{}] }

def run (s : Supervisor) (turns : List Turn) : Supervisor := turns.foldl turn s

end Supervisor

end CydMonitor.Daemon
