import CydMonitor.Wifi.Context

/-!
# The WiFi context provider (`macos/setup-app/Sources/SetupCore`)

`Permission.swift` and `ProviderProtocol.swift`. Text is a list of characters, a character the
list of its Unicode scalars, and a line the scalars of its characters. `none` is a trap.
-/

namespace CydMonitor.Wifi

open Text (utf8 decimal)

abbrev Character := List Char

abbrev Text := List Character

def text (s : String) : Text := s.toList.map ([·])

/-- `Character ==` is canonical equivalence: of the characters that are no ASCII letter, digit or
`._- ` themselves, the Kelvin sign alone is equal to one. -/
def canonical (c : Character) : Character :=
  if c = [Char.ofNat 0x212A] then ['K'] else c

/-- Lower case of ASCII and full-width letters. Other letters have none that is a hex digit. -/
def lowerScalar (c : Char) : Char :=
  if (0x41 ≤ c.toNat ∧ c.toNat ≤ 0x5A) ∨ (0xFF21 ≤ c.toNat ∧ c.toNat ≤ 0xFF3A) then
    Char.ofNat (c.toNat + 0x20)
  else c

def lowercased (t : Text) : Text := t.map (·.map lowerScalar)

/-- ASCII and full-width digits, of a single scalar. -/
def hexDigitValue : Character → Option ℕ
  | [c] =>
    let value := c.toNat
    if 0x30 ≤ value ∧ value ≤ 0x39 then some (value - 0x30)
    else if 0x61 ≤ value ∧ value ≤ 0x66 then some (value - 0x61 + 10)
    else if 0x41 ≤ value ∧ value ≤ 0x46 then some (value - 0x41 + 10)
    else if 0xFF10 ≤ value ∧ value ≤ 0xFF19 then some (value - 0xFF10)
    else if 0xFF41 ≤ value ∧ value ≤ 0xFF46 then some (value - 0xFF41 + 10)
    else if 0xFF21 ≤ value ∧ value ≤ 0xFF26 then some (value - 0xFF21 + 10)
    else none
  | _ => none

def isHexDigit (c : Character) : Bool := (hexDigitValue c).isSome

structure WifiSample where
  band : Option WifiBand
  channel : Option Int
  ssid : Option (List UInt8)
  bssid : Option Text
  deriving DecidableEq

structure WifiIdentity where
  ssid : Option (List UInt8)
  bssid : Option Text
  deriving DecidableEq

def WifiIdentity.isEmpty (identity : WifiIdentity) : Bool :=
  identity.ssid.isNone && identity.bssid.isNone

def sanitizedSsid (ssid : List UInt8) : Option (List UInt8) :=
  if 1 ≤ ssid.length ∧ ssid.length ≤ 32 then some ssid else none

def bssidParts (t : Text) : List Text := (lowercased t).splitOn [':']

def sanitizedBssid (t : Text) : Option Text :=
  let parts := bssidParts t
  if parts.length = 6 ∧ parts.all fun p => p.length == 2 && p.all isHexDigit then
    some ([[':']].intercalate parts)
  else none

def sanitizedIdentity (sample : WifiSample) : WifiIdentity :=
  { ssid := sample.ssid.bind sanitizedSsid, bssid := sample.bssid.bind sanitizedBssid }

inductive WifiReadResult where
  | noInterface | failed
  | sample (sample : WifiSample)
  deriving DecidableEq

def contextAvailability (permission : PermissionStatus) (read : WifiReadResult) :
    ContextAvailability :=
  match permission with
  | .notRequested => .permissionNotRequested
  | .denied => .denied
  | .restricted => .restricted
  | .unsupported => .unsupported
  | .error => .error
  | .granted =>
    match read with
    | .failed => .error
    | .noInterface => .authorizedUnavailable
    | .sample sample =>
      if (sanitizedIdentity sample).isEmpty then .authorizedUnavailable else .available

def PermissionStatus.rawValue : PermissionStatus → String
  | .notRequested => "not_requested"
  | .denied => "denied"
  | .restricted => "restricted"
  | .granted => "granted"
  | .unsupported => "unsupported"
  | .error => "error"

def ContextAvailability.rawValue : ContextAvailability → String
  | .available => "available"
  | .permissionNotRequested => "not_requested"
  | .denied => "denied"
  | .restricted => "restricted"
  | .authorizedUnavailable => "authorized_unavailable"
  | .unsupported => "unsupported"
  | .error => "error"

def WifiBand.rawValue : WifiBand → String
  | .ghz2_4 => "2.4"
  | .ghz5 => "5"
  | .ghz6 => "6"

def allowed : Text :=
  text "ABCDEFGHIJKLMNOPQRSTUVWXYZabcdefghijklmnopqrstuvwxyz0123456789._- "

def cleanLabel (t : Text) : Text :=
  let clean := (t.map fun c => if canonical c ∈ allowed then c else ['_']).take 32
  if clean.isEmpty then text "unknown" else clean

/-- A string between its quotes. -/
def quoted (s : List Char) : List Char := '"' :: s ++ ['"']

def hexDigit (n : ℕ) : Char := Char.ofNat (if n < 10 then 0x30 + n else 0x61 + (n - 10))

/-- `String(format: "%02x", b)` -/
def hexByte (b : UInt8) : List Char := [hexDigit (b.toNat / 16), hexDigit (b.toNat % 16)]

def channelOnWire (sample : Option WifiSample) : Option Int := do
  let c ← (← sample).channel
  if 1 ≤ c ∧ c ≤ 233 then some c else none

def orNull (s : Option (List Char)) : List Char := s.getD "null".toList

structure ProviderMessageBuilder where
  seq : ℕ
  deriving DecidableEq

namespace ProviderMessageBuilder

def maxLineBytes : ℕ := 512

/-- Its precondition is the length. -/
def line (json : List Char) : Option (List Char) :=
  if (utf8 json).length ≤ maxLineBytes then some json else none

def helloText (provider version : Text) : List Char :=
  "\x7b\"v\":1,\"type\":\"hello\",\"provider\":".toList ++ quoted (cleanLabel provider).flatten ++
    (",\"provider_version\":".toList ++ (quoted (cleanLabel version).flatten ++ ['}']))

def hello (provider version : Text) : Option (List Char) := line (helloText provider version)

def permissionText (seq : ℕ) (status : PermissionStatus) : List Char :=
  "\x7b\"v\":1,\"type\":\"permission_status\",\"seq\":".toList ++ decimal seq ++
    (",\"status\":".toList ++ (quoted status.rawValue.toList ++ ['}']))

def contextText (seq : ℕ) (tMs : UInt64) (ageMs : UInt32) (availability : ContextAvailability)
    (sample : Option WifiSample) : List Char :=
  let identity := if availability = .available then sample.map sanitizedIdentity else none
  let ssid := identity.bind (·.ssid)
  let bssid := identity.bind (·.bssid)
  "\x7b\"v\":1,\"type\":\"context\",\"seq\":".toList ++ decimal seq ++
    (",\"t_ms\":".toList ++ decimal (min tMs.toNat (2 ^ 53))) ++
    (",\"age_ms\":".toList ++ decimal ageMs.toNat) ++
    (",\"availability\":".toList ++ quoted availability.rawValue.toList) ++
    (",\"band\":".toList ++
      orNull ((sample.bind (·.band)).map fun band => quoted band.rawValue.toList)) ++
    (",\"channel\":".toList ++
      orNull ((channelOnWire sample).map fun c => decimal c.toNat)) ++
    (",\"ssid_hex\":".toList ++ orNull (ssid.map fun s => quoted (s.flatMap hexByte))) ++
    (",\"bssid\":".toList ++ orNull (bssid.map fun t => quoted t.flatten)) ++ ['}']

/-- `seq += 1` traps on overflow. -/
def next (b : ProviderMessageBuilder) : Option ProviderMessageBuilder :=
  if b.seq + 1 < 2 ^ 64 then some { seq := b.seq + 1 } else none

def permissionStatus (b : ProviderMessageBuilder) (status : PermissionStatus) :
    Option (List Char × ProviderMessageBuilder) := do
  let line ← line (permissionText b.seq status)
  let b ← b.next
  pure (line, b)

def context (b : ProviderMessageBuilder) (tMs : UInt64) (ageMs : UInt32)
    (availability : ContextAvailability) (sample : Option WifiSample) :
    Option (List Char × ProviderMessageBuilder) := do
  let line ← line (contextText b.seq tMs ageMs availability sample)
  let b ← b.next
  pure (line, b)

end ProviderMessageBuilder

structure HeartbeatSchedule where
  heartbeatMs : UInt64
  pollMs : UInt64
  leadMs : UInt64
  deriving DecidableEq

namespace HeartbeatSchedule

def init (heartbeatMs pollMs : UInt64) (leadMs : UInt64 := 100) : HeartbeatSchedule :=
  { heartbeatMs, pollMs, leadMs := min leadMs heartbeatMs }

/-- `lastSentMs + heartbeatMs` traps on overflow. -/
def deadline (schedule : HeartbeatSchedule) (lastSentMs : UInt64) : Option ℕ :=
  if lastSentMs.toNat + schedule.heartbeatMs.toNat < 2 ^ 64 then
    some (lastSentMs.toNat + schedule.heartbeatMs.toNat - schedule.leadMs.toNat)
  else none

def due (schedule : HeartbeatSchedule) (nowMs : UInt64) : Option UInt64 → Option Bool
  | none => some true
  | some last =>
    if nowMs < last then some true
    else (schedule.deadline last).map fun deadline => decide (deadline ≤ nowMs.toNat)

end HeartbeatSchedule

structure ProviderSession where
  schedule : HeartbeatSchedule
  builder : ProviderMessageBuilder
  lastPermission : Option PermissionStatus
  lastContext : Option (ContextAvailability × WifiReadResult)
  lastContextAt : Option UInt64
  provider : Text
  version : Text
  deriving DecidableEq

/-- One call of `tick`. -/
structure Tick where
  tMs : UInt64
  permission : PermissionStatus
  read : WifiReadResult
  deriving DecidableEq

def WifiReadResult.sample? : WifiReadResult → Option WifiSample
  | .sample s => some s
  | .noInterface | .failed => none

namespace ProviderSession

def init (provider version : Text) (pollMs : UInt64) : ProviderSession :=
  { schedule := .init 1000 pollMs, builder := { seq := 0 }, lastPermission := none,
    lastContext := none, lastContextAt := none, provider, version }

def helloLine (s : ProviderSession) : Option (List Char) :=
  ProviderMessageBuilder.hello s.provider s.version

/-- Whether the read differs from the last one sent: `same` is `WifiReadResult ==`, which takes
canonically equivalent text to be equal. -/
def changed (same : WifiReadResult → WifiReadResult → Bool) (s : ProviderSession) (t : Tick) :
    Bool :=
  match s.lastContext with
  | none => true
  | some (availability, read) =>
    availability != contextAvailability t.permission t.read || !same read t.read

/-- Whether a context goes out. -/
def sends (same : WifiReadResult → WifiReadResult → Bool) (s : ProviderSession) (t : Tick) :
    Option Bool := do
  let due ← s.schedule.due t.tMs s.lastContextAt
  pure (some t.permission != s.lastPermission || s.changed same t || due)

def sendPermission (s : ProviderSession) (t : Tick) :
    Option (List (List Char) × ProviderSession) :=
  if some t.permission ≠ s.lastPermission then do
    let (line, builder) ← s.builder.permissionStatus t.permission
    pure ([line], { s with builder, lastPermission := some t.permission })
  else some ([], s)

def sendContext (s : ProviderSession) (t : Tick) :
    Option (List (List Char) × ProviderSession) := do
  let availability := contextAvailability t.permission t.read
  let (line, builder) ← s.builder.context t.tMs 0 availability t.read.sample?
  pure ([line], { s with
    builder, lastContext := some (availability, t.read), lastContextAt := some t.tMs })

def tick (same : WifiReadResult → WifiReadResult → Bool) (s : ProviderSession) (t : Tick) :
    Option (List (List Char) × ProviderSession) := do
  let (lines, s') ← s.sendPermission t
  if ← s.sends same t then do
    let (more, s') ← s'.sendContext t
    pure (lines ++ more, s')
  else pure (lines, s')

end ProviderSession

end CydMonitor.Wifi
