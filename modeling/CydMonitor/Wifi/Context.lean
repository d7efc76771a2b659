import CydMonitor.Rust.Types
import CydMonitor.Wifi.FlatJson

/-!
# Provider messages as the daemon reads them

`host/metrics/src/wifi_context.rs`, and the order checks of `handle_line` in
`host/platform-macos/src/wifi_context_server.rs`. The enumerations are shared with the provider.
-/

namespace CydMonitor.Wifi

open Text (lit byte isDigit)

inductive ContextAvailability where
  | available | permissionNotRequested | denied | restricted | authorizedUnavailable
  | unsupported | error
  deriving DecidableEq, Repr

inductive WifiBand where
  | ghz2_4 | ghz5 | ghz6
  deriving DecidableEq, Repr

inductive PermissionStatus where
  | notRequested | denied | restricted | granted | unsupported | error
  deriving DecidableEq, Repr

def ContextAvailability.names : List (ContextAvailability × List UInt8) :=
  [(.available, lit "available"),
    (.permissionNotRequested, lit "not_requested"),
    (.denied, lit "denied"),
    (.restricted, lit "restricted"),
    (.authorizedUnavailable, lit "authorized_unavailable"),
    (.unsupported, lit "unsupported"),
    (.error, lit "error")]

def PermissionStatus.names : List (PermissionStatus × List UInt8) :=
  [(.notRequested, lit "not_requested"),
    (.denied, lit "denied"),
    (.restricted, lit "restricted"),
    (.granted, lit "granted"),
    (.unsupported, lit "unsupported"),
    (.error, lit "error")]

def fromName {α : Type} (table : List (α × List UInt8)) (name : List UInt8) : Option α :=
  (table.find? (·.2 == name)).map Prod.fst

structure AssociationContext where
  availability : ContextAvailability
  band : Option WifiBand
  channel : Option UInt16
  ssid : Option (List UInt8)
  bssid : Option (Octets 6)
  deriving DecidableEq

inductive ProviderMessage where
  | hello (provider providerVersion : List UInt8)
  | permissionStatus (seq : ℕ) (status : PermissionStatus)
  | context (seq tMs : ℕ) (ageMs : UInt32) (context : AssociationContext)
  deriving DecidableEq

inductive MessageError where
  | tooLong | notJson | badVersion | unknownType | missingField | badField
  deriving DecidableEq, Repr

def FlatJsonError.toMessageError : FlatJsonError → MessageError
  | .tooLong => .tooLong
  | .notJson => .notJson

def ipcVersion : Int := 1
def kMaxTextField : ℕ := 32

abbrev Fields := List (List UInt8 × Value)

namespace Fields

def get (f : Fields) (key : String) : Option Value :=
  (f.find? (·.1 == lit key)).map Prod.snd

def str (f : Fields) (key : String) : Except MessageError (List UInt8) :=
  match f.get key with
  | some (.str s) => .ok s
  | some _ => .error .badField
  | none => .error .missingField

def uint (f : Fields) (key : String) (max : ℕ) : Except MessageError ℕ :=
  match f.get key with
  | some (.int n) => if 0 ≤ n ∧ n ≤ max then .ok n.toNat else .error .badField
  | some _ => .error .badField
  | none => .error .missingField

def nullableStr (f : Fields) (key : String) : Except MessageError (Option (List UInt8)) :=
  match f.get key with
  | some (.str s) => .ok (some s)
  | some .null => .ok none
  | some _ => .error .badField
  | none => .error .missingField

end Fields

def isAlphanumeric (b : UInt8) : Bool :=
  isDigit b || (byte 'A' ≤ b && b ≤ byte 'Z') || (byte 'a' ≤ b && b ≤ byte 'z')

def isLabelByte (b : UInt8) : Bool := isAlphanumeric b || b ∈ lit "._- "

def label (s : List UInt8) : Except MessageError (List UInt8) :=
  if s = [] ∨ s.length > kMaxTextField ∨ !s.all isLabelByte then .error .badField else .ok s

/-- `from_str_radix` of one digit. -/
def hexValue (b : UInt8) : Option UInt8 :=
  if isDigit b then some (b - byte '0')
  else if byte 'A' ≤ b ∧ b ≤ byte 'F' then some (b - byte 'A' + 10)
  else if byte 'a' ≤ b ∧ b ≤ byte 'f' then some (b - byte 'a' + 10)
  else none

def hexPairs : List UInt8 → Option (List UInt8)
  | a :: b :: rest => do
    let high ← hexValue a
    let low ← hexValue b
    let bytes ← hexPairs rest
    pure ((16 * high + low) :: bytes)
  | [] => some []
  | [_] => none

def hexBytes (s : List UInt8) (max : ℕ) : Except MessageError (List UInt8) :=
  if s.length > max * 2 then .error .badField
  else
    match hexPairs s with
    | some bytes => .ok bytes
    | none => .error .badField

def parseMac (s : List UInt8) : Except MessageError (Octets 6) := do
  let parts := s.splitOn (byte ':')
  if parts.length ≠ 6 ∨ parts.any (·.length ≠ 2) then .error .badField
  else
    match Octets.ofList? 6 (← parts.mapM fun p => hexBytes p 1).flatten with
    | some bssid => .ok bssid
    | none => .error .badField

def parseBand (f : Fields) : Except MessageError (Option WifiBand) := do
  match ← f.nullableStr "band" with
  | none => pure none
  | some band =>
    if band = lit "2.4" then pure (some .ghz2_4)
    else if band = lit "5" then pure (some .ghz5)
    else if band = lit "6" then pure (some .ghz6)
    else .error .badField

def parseChannel (f : Fields) : Except MessageError (Option UInt16) :=
  match f.get "channel" with
  | some .null => .ok none
  | some (.int c) => if 1 ≤ c ∧ c ≤ 233 then .ok (some (UInt16.ofNat c.toNat)) else .error .badField
  | some _ => .error .badField
  | none => .error .missingField

def parseHello (f : Fields) : Except MessageError ProviderMessage := do
  let provider ← label (← f.str "provider")
  let version ← label (← f.str "provider_version")
  pure (.hello provider version)

def parsePermissionStatus (f : Fields) : Except MessageError ProviderMessage := do
  let seq ← f.uint "seq" (2 ^ 32 - 1)
  match fromName PermissionStatus.names (← f.str "status") with
  | some status => pure (.permissionStatus seq status)
  | none => .error .badField

def parseContext (f : Fields) : Except MessageError ProviderMessage := do
  match fromName ContextAvailability.names (← f.str "availability") with
  | none => .error .badField
  | some availability => do
    let band ← parseBand f
    let channel ← parseChannel f
    let ssid ← (← f.nullableStr "ssid_hex").mapM fun s => hexBytes s 32
    let bssid ← (← f.nullableStr "bssid").mapM parseMac
    if (ssid.isSome ∨ bssid.isSome) ∧ availability ≠ .available then .error .badField
    else do
      let seq ← f.uint "seq" (2 ^ 32 - 1)
      let tMs ← f.uint "t_ms" (2 ^ 53)
      let ageMs ← f.uint "age_ms" (2 ^ 32 - 1)
      pure (.context seq tMs (UInt32.ofNat ageMs) { availability, band, channel, ssid, bssid })

def parseVersion (f : Fields) : Except MessageError Unit :=
  match f.get "v" with
  | some (.int v) => if v = ipcVersion then .ok () else .error .badVersion
  | some _ => .error .badField
  | none => .error .missingField

def parseFields (f : Fields) : Except MessageError ProviderMessage := do
  parseVersion f
  let kind ← f.str "type"
  if kind = lit "hello" then parseHello f
  else if kind = lit "permission_status" then parsePermissionStatus f
  else if kind = lit "context" then parseContext f
  else .error .unknownType

def parseProviderMessage (line : List UInt8) : Except MessageError ProviderMessage :=
  match parseFlatObject line with
  | .error e => .error e.toMessageError
  | .ok fields => parseFields fields

/-- What a connection remembers for the order checks. -/
structure Connection where
  helloSeen : Bool
  lastSeq : Option ℕ
  lastTMs : ℕ
  deriving DecidableEq

namespace Connection

def accepted : Connection := { helloSeen := false, lastSeq := none, lastTMs := 0 }

def follows (conn : Connection) (seq : ℕ) : Bool :=
  match conn.lastSeq with
  | none => true
  | some last => last < seq

/-- The order checks; `none`: the line is counted as a bad one. -/
def receive (conn : Connection) : ProviderMessage → Option Connection
  | .hello .. => if conn.helloSeen then none else some { conn with helloSeen := true }
  | .permissionStatus seq _ =>
    if !conn.helloSeen then none
    else if !conn.follows seq then none
    else some { conn with lastSeq := some seq }
  | .context seq tMs _ _ =>
    if !conn.helloSeen then none
    else if !(conn.follows seq && decide (conn.lastTMs ≤ tMs)) then none
    else some { conn with lastSeq := some seq, lastTMs := tMs }

def receiveAll (conn : Connection) : List ProviderMessage → Option Connection
  | [] => some conn
  | m :: ms => do
    let conn ← conn.receive m
    receiveAll conn ms

end Connection

end CydMonitor.Wifi
