import CydMonitor.Lib.Scan
import CydMonitor.Wifi.FlatJson

/-!
# Control requests (`parse_request` in `host/hostcore/src/control.rs`)

Text is its UTF-8 bytes.
-/

namespace CydMonitor.ControlIpc

open Wifi (Value FlatJsonError parseFlatObject)
open Text (lit byte)
open Scan (except_bind_eq_ok except_bind_eq_error)

/-- Longest request line, newline excluded. -/
def maxRequestBytes : ℕ := Wifi.kMaxLineBytes

inductive Request where
  | status
  | monitors
  | pairStart (port : Option (List UInt8))
  | pairCancel
  | unpair
  | resetCalibration
  | forget
  | stop
  deriving DecidableEq, Repr

inductive RequestError where
  | tooLong | malformed | badVersion | unknownCommand
  deriving DecidableEq, Repr

def isAsciiAlphanumeric (c : UInt8) : Bool :=
  (byte '0' ≤ c && c ≤ byte '9') || (byte 'a' ≤ c && c ≤ byte 'z') ||
    (byte 'A' ≤ c && c ≤ byte 'Z')

/-- Only device nodes of this shape may be named as the serial port. -/
def validPort (path : List UInt8) : Bool :=
  if lit "/dev/" <+: path then
    let name := path.drop (lit "/dev/").length
    !name.isEmpty && name.length ≤ 64 &&
      name.all fun c => isAsciiAlphanumeric c || (lit "._-").contains c
  else false

/-- The value of the first field of a key. -/
def get (fields : List (List UInt8 × Value)) (key : String) : Option Value :=
  (fields.find? fun f => f.1 = lit key).map Prod.snd

def parsePort : Option Value → Except RequestError (Option (List UInt8))
  | none | some .null => .ok none
  | some (.str p) => if validPort p then .ok (some p) else .error .malformed
  | some _ => .error .malformed

/-- The commands by their names. -/
def commands (port : Option (List UInt8)) : List (List UInt8 × Request) :=
  [(lit "status", .status), (lit "monitors", .monitors), (lit "pair_start", .pairStart port),
    (lit "pair_cancel", .pairCancel), (lit "unpair", .unpair),
    (lit "reset_calibration", .resetCalibration), (lit "forget", .forget), (lit "stop", .stop)]

def command (cmd : List UInt8) (port : Option (List UInt8)) : Except RequestError Request :=
  match (commands port).lookup cmd with
  | some request => .ok request
  | none => .error .unknownCommand

def checkVersion : Option Value → Except RequestError Unit
  | some (.int n) => if n = 1 then .ok () else .error .badVersion
  | _ => .error .malformed

def parseCmd : Option Value → Except RequestError (List UInt8)
  | some (.str cmd) => .ok cmd
  | _ => .error .malformed

def RequestError.ofFlatJson : FlatJsonError → RequestError
  | .tooLong => .tooLong
  | .notJson => .malformed

def parseRequest (line : List UInt8) : Except RequestError Request := do
  let fields ← (parseFlatObject line).mapError RequestError.ofFlatJson
  checkVersion (get fields "v")
  let cmd ← parseCmd (get fields "cmd")
  let port ← parsePort (get fields "port")
  command cmd port

example : parseRequest
    (lit "\x7b\"v\":1,\"cmd\":\"pair_start\",\"port\":\"/dev/cu.usbserial-10\"\x7d") =
      .ok (.pairStart (some (lit "/dev/cu.usbserial-10"))) := by
  decide +kernel

/-- A version-1 object with a known command and no port but a device node. -/
def Requests (line : List UInt8) (request : Request) : Prop :=
  ∃ fields cmd port, parseFlatObject line = .ok fields ∧ get fields "v" = some (.int 1) ∧
    get fields "cmd" = some (.str cmd) ∧ parsePort (get fields "port") = .ok port ∧
    (cmd, request) ∈ commands port

/-- An object with an integer version that is another one. -/
def WrongVersion (line : List UInt8) : Prop :=
  ∃ fields n, parseFlatObject line = .ok fields ∧ get fields "v" = some (.int n) ∧ n ≠ 1

private theorem lookup_commands {cmd : List UInt8} {port : Option (List UInt8)}
    {request : Request} : (commands port).lookup cmd = some request ↔
      (cmd, request) ∈ commands port := by
  constructor
  · intro h
    obtain ⟨before, after, hcommands, -⟩ := List.lookup_eq_some_iff.mp h
    rw [hcommands]
    simp
  · intro h
    simp only [commands, List.mem_cons, List.not_mem_nil, or_false, Prod.mk.injEq] at h
    obtain ⟨rfl, rfl⟩ | ⟨rfl, rfl⟩ | ⟨rfl, rfl⟩ | ⟨rfl, rfl⟩ | ⟨rfl, rfl⟩ | ⟨rfl, rfl⟩ |
      ⟨rfl, rfl⟩ | ⟨rfl, rfl⟩ := h <;> rfl

private theorem mapError_eq_ok {line : List UInt8} {fields : List (List UInt8 × Value)} :
    (parseFlatObject line).mapError RequestError.ofFlatJson = .ok fields ↔
      parseFlatObject line = .ok fields := by
  cases parseFlatObject line <;> simp [Except.mapError]

private theorem checkVersion_ok {v : Option Value} {u : Unit} :
    checkVersion v = .ok u ↔ v = some (.int 1) := by
  unfold checkVersion
  split
  · split_ifs with hn <;> simp [hn]
  · next hother => exact iff_of_false nofun (hother 1)

private theorem checkVersion_bad {v : Option Value} :
    checkVersion v = .error .badVersion ↔ ∃ n, v = some (.int n) ∧ n ≠ 1 := by
  unfold checkVersion
  split
  · split_ifs with hn <;> simp [hn]
  · next hother => exact iff_of_false nofun fun ⟨n, h, _⟩ => hother n h

private theorem parseCmd_ok {v : Option Value} {cmd : List UInt8} :
    parseCmd v = .ok cmd ↔ v = some (.str cmd) := by
  unfold parseCmd
  split
  · simp
  · next hother => exact iff_of_false nofun (hother cmd)

private theorem command_ok {cmd : List UInt8} {port : Option (List UInt8)} {request : Request} :
    command cmd port = .ok request ↔ (cmd, request) ∈ commands port := by
  rw [← lookup_commands, command]
  cases (commands port).lookup cmd <;> simp

/-- A line is a request exactly when it spells one. -/
theorem parseRequest_ok {line : List UInt8} {request : Request} :
    parseRequest line = .ok request ↔ Requests line request := by
  unfold parseRequest Requests
  simp only [except_bind_eq_ok, mapError_eq_ok, checkVersion_ok, parseCmd_ok, command_ok]
  constructor
  · intro ⟨fields, hfields, (), hversion, cmd, hcmd, port, hport, hcommand⟩
    exact ⟨fields, cmd, port, hfields, hversion, hcmd, hport, hcommand⟩
  · intro ⟨fields, cmd, port, hfields, hversion, hcmd, hport, hcommand⟩
    exact ⟨fields, hfields, (), hversion, cmd, hcmd, port, hport, hcommand⟩

/-- What comes after the version is refused otherwise. -/
private theorem later_errors {fields : List (List UInt8 × Value)} {e : RequestError}
    (h : (do
      let cmd ← parseCmd (get fields "cmd")
      let port ← parsePort (get fields "port")
      command cmd port) = .error e) : e = .malformed ∨ e = .unknownCommand := by
  obtain hcmd | ⟨cmd, -, h⟩ := except_bind_eq_error.mp h
  · left
    unfold parseCmd at hcmd
    split at hcmd <;> cases hcmd
    rfl
  · obtain hport | ⟨port, -, hcommand⟩ := except_bind_eq_error.mp h
    · left
      unfold parsePort at hport
      split at hport
      · cases hport
      · cases hport
      · split_ifs at hport
        cases hport
        rfl
      · cases hport
        rfl
    · right
      unfold command at hcommand
      split at hcommand <;> cases hcommand
      rfl

theorem parseRequest_badVersion {line : List UInt8} :
    parseRequest line = .error .badVersion ↔ WrongVersion line := by
  unfold parseRequest WrongVersion
  constructor
  · intro h
    obtain hflat | ⟨fields, hfields, h⟩ := except_bind_eq_error.mp h
    · cases hparse : parseFlatObject line with
      | ok fields =>
        rw [hparse] at hflat
        cases hflat
      | error e =>
        rw [hparse] at hflat
        cases e <;> cases hflat
    · obtain hversion | ⟨u, -, h⟩ := except_bind_eq_error.mp h
      · obtain ⟨n, hn, hne⟩ := checkVersion_bad.mp hversion
        exact ⟨fields, n, mapError_eq_ok.mp hfields, hn, hne⟩
      · obtain h | h := later_errors h <;> cases h
  · intro ⟨fields, n, hfields, hversion, hne⟩
    refine except_bind_eq_error.mpr (.inr ⟨fields, mapError_eq_ok.mpr hfields, ?_⟩)
    exact except_bind_eq_error.mpr (.inl (checkVersion_bad.mpr ⟨n, hversion, hne⟩))

theorem parseRequest_tooLong {line : List UInt8} :
    parseRequest line = .error .tooLong ↔ maxRequestBytes < line.length := by
  unfold parseRequest maxRequestBytes
  constructor
  · intro h
    obtain hflat | ⟨fields, -, h⟩ := except_bind_eq_error.mp h
    · by_contra hlength
      rw [parseFlatObject, if_neg hlength] at hflat
      split_ifs at hflat
      · cases hflat
      · split at hflat
        · cases hflat
        · split_ifs at hflat <;> cases hflat
    · obtain hversion | ⟨u, -, h⟩ := except_bind_eq_error.mp h
      · unfold checkVersion at hversion
        split at hversion
        · split_ifs at hversion
          cases hversion
        · cases hversion
      · obtain h | h := later_errors h <;> cases h
  · intro hlength
    refine except_bind_eq_error.mpr (.inl ?_)
    rw [parseFlatObject, if_pos hlength]
    rfl

end CydMonitor.ControlIpc
