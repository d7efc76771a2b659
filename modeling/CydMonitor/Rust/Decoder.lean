import CydMonitor.Lib.CborHead
import CydMonitor.Rust.Encoder

/-!
# The Host decoder (`host/protocol/src/lib.rs`)

A cursor into a slice is the list of bytes not read yet, so cursor additions are
unbounded. `u64` values stay natural numbers until they are stored in a field.
-/

namespace CydMonitor.Rust

open BigEndian Cbor Scan

def readUint (expected : ℕ) : Scan UInt8 Unit ℕ
  | [] => .error ()
  | first :: rest =>
    if first.toNat / 32 ≠ expected then .error ()
    else
      let a := first.toNat % 32
      if a ≤ 23 then .ok (a, rest)
      else
        let n := if a = 24 then 1 else if a = 25 then 2 else if a = 26 then 4
          else if a = 27 then 8 else 0
        if n = 0 ∨ rest.length < n then .error ()
        else
          let v := value (rest.take n)
          if (a = 24 ∧ v < 24) ∨ (a = 25 ∧ v ≤ 255) ∨ (a = 26 ∧ v ≤ 65535) ∨
              (a = 27 ∧ v ≤ 2 ^ 32 - 1) then .error ()
          else .ok (v, rest.drop n)

/-- `read_uint(..).ok_or(Error::Malformed)` -/
def expectUint (expected : ℕ) : Scan UInt8 Error ℕ := (readUint expected).orFail .malformed

/-- The major type of the next byte, `input.get(*p).map(|first| first >> 5)`. -/
def majorOf (first : Option UInt8) : Option ℕ := first.map (·.toNat / 32)

/-- `skip_value`, by the nesting levels left: depth 0 leaves four. -/
def skipValue : ℕ → Scan UInt8 Error Unit
  | 0 => fail .malformed
  | levels + 1 => peek fun first => match majorOf first with
    | none => fail .malformed
    | some major =>
      if major ≤ 1 then do
        let _ ← expectUint major
        pure ()
      else if major ≤ 3 then do
        let len ← expectUint major
        let _ ← take len .malformed
        pure ()
      else if major ≤ 5 then do
        let count ← expectUint major
        ensure (count ≤ 16) .malformed
        loop (fun _ => skipValue levels) (count * if major = 5 then 2 else 1) ()
      else fail .malformed

/-- A value of the body's own map may be a group's map. -/
def skipBodyValue : Scan UInt8 Error Unit := peek fun first =>
  if majorOf first = some 5 then do
    let inner ← expectUint 5
    ensure (inner ≤ 16) .malformed
    loop (fun _ => skipValue 4) (inner * 2) ()
  else skipValue 4

def skipBodyEntry : Scan UInt8 Error Unit := do
  skipValue 4
  skipBodyValue

def skipBody : Scan UInt8 Error Unit := peek fun first =>
  if majorOf first = some 5 then do
    let count ← expectUint 5
    ensure (count ≤ 16) .malformed
    loop (fun _ => skipBodyEntry) count ()
  else skipValue 4

def check (c : Prop) [Decidable c] : Except Error Unit :=
  if c then .ok () else .error .malformed

/-- `ok_or(Error::Malformed)` -/
def required {α : Type} : Option α → Except Error α
  | some a => .ok a
  | none => .error .malformed

def byte (v : ℕ) : Except Error UInt8 := if v ≤ 255 then .ok (UInt8.ofNat v) else .error .malformed

def word (v : ℕ) : Except Error UInt32 :=
  if v ≤ 2 ^ 32 - 1 then .ok (UInt32.ofNat v) else .error .malformed

def availabilityFrom : ℕ → Except Error Availability
  | 0 => .ok .available
  | 1 => .ok .unsupported
  | 2 => .ok .absent
  | 3 => .ok .temporarilyUnavailable
  | 4 => .ok .error
  | _ => .error .malformed

def freshnessFrom : ℕ → Except Error Freshness
  | 0 => .ok .fresh
  | 1 => .ok .stale
  | _ => .error .malformed

def messageType : ℕ → Except Error MessageType
  | 1 => .ok .hello
  | 2 => .ok .helloReply
  | 3 => .ok .pair
  | 4 => .ok .snapshot
  | 5 => .ok .command
  | 6 => .ok .commandReply
  | 7 => .ok .error
  | _ => .error .malformed

/-- `bytes`: a byte string of exactly the expected length. -/
def bytes (expectedLen : ℕ) : Scan UInt8 Error (Octets expectedLen) := do
  let len ← expectUint 2
  ensure (len = expectedLen) .malformed
  octets expectedLen .malformed

def readByteString : Scan UInt8 Error (List UInt8) := do
  let len ← expectUint 2
  ensure (len ≤ maxFrameBytes) .malformed
  take len .malformed

/-- One round of the loop that the groups share: a key below `n` is a required
number that may not repeat, any other key is skipped. -/
def fieldEntry (n : ℕ) (value : ℕ → Option ℕ) : Scan UInt8 Error (ℕ → Option ℕ) := do
  let key ← expectUint 0
  if n ≤ key then do
    skipValue 4
    pure value
  else do
    ensure (value key = none) .malformed
    let v ← expectUint 0
    pure (Function.update value key (some v))

def groupFields (n : ℕ) : Scan UInt8 Error (ℕ → Option ℕ) := do
  let count ← expectUint 5
  ensure (count ≤ 16) .malformed
  loop (fieldEntry n) count fun _ => none

/-- `(0..n).map(field).collect()`: the values of keys `0` to `n - 1`, all required. -/
def collect (n : ℕ) (value : ℕ → Option ℕ) : Except Error (ℕ → ℕ) :=
  if ∀ k < n, (value k).isSome then .ok fun k => (value k).getD 0 else .error .malformed

def ramFrom (value : ℕ → Option ℕ) : Except Error RamSnapshot := do
  let used ← required (value 1)
  let total ← required (value 2)
  let age ← required (value 3)
  check (used ≤ total ∧ age ≤ 2 ^ 32 - 1)
  let availability ← availabilityFrom (← required (value 0))
  let freshness ← freshnessFrom (← required (value 4))
  pure { availability, usedBytes := UInt64.ofNat used, totalBytes := UInt64.ofNat total,
         sourceAgeMs := UInt32.ofNat age, freshness }

def decodeRamGroup : Scan UInt8 Error RamSnapshot := do
  let value ← groupFields 5
  lift (ramFrom value)

def storageFrom (all : ℕ → ℕ) : Except Error StorageSnapshot := do
  check (¬(all 2 > all 1 ∨ all 3 > 2 ^ 32 - 1 ∨ all 7 > 2 ^ 32 - 1))
  let capacityAvailability ← availabilityFrom (all 0)
  let ioAvailability ← availabilityFrom (all 4)
  pure { capacityAvailability, totalBytes := UInt64.ofNat (all 1),
         availableBytes := UInt64.ofNat (all 2), capacityAgeMs := UInt32.ofNat (all 3),
         ioAvailability, readBytesPerS := UInt64.ofNat (all 5),
         writeBytesPerS := UInt64.ofNat (all 6), ioAgeMs := UInt32.ofNat (all 7) }

def decodeStorageGroup : Scan UInt8 Error StorageSnapshot := do
  let value ← groupFields 8
  let all ← lift (collect 8 value)
  lift (storageFrom all)

def batteryFrom (all : ℕ → ℕ) : Except Error BatterySnapshot := do
  check (¬(all 1 > 1000 ∨ all 2 > 4 ∨ all 3 > 2 ^ 16 - 1 ∨ all 4 > 2 ^ 32 - 1 ∨ all 6 > 1000 ∨
    all 7 > 3 ∨ all 8 > 2 ^ 16 - 1 ∨ all 9 > 2 ^ 32 - 1))
  let chargeAvailability ← availabilityFrom (all 0)
  let conditionAvailability ← availabilityFrom (all 5)
  pure { chargeAvailability, chargePerMille := UInt16.ofNat (all 1),
         state := UInt8.ofNat (all 2), timeRemainingMin := UInt16.ofNat (all 3),
         chargeAgeMs := UInt32.ofNat (all 4), conditionAvailability,
         maxCapacityPerMille := UInt16.ofNat (all 6), condition := UInt8.ofNat (all 7),
         cycleCount := UInt16.ofNat (all 8), conditionAgeMs := UInt32.ofNat (all 9) }

def decodeBatteryGroup : Scan UInt8 Error BatterySnapshot := do
  let value ← groupFields 10
  let all ← lift (collect 10 value)
  lift (batteryFrom all)

def agentsFrom (all : ℕ → ℕ) : Except Error AgentsSnapshot := do
  check (¬(all 1 > 2 ^ 32 - 1 ∨ ∃ slot < agentSlots, all (2 + slot) > 3))
  let availability ← availabilityFrom (all 0)
  pure { availability, sourceAgeMs := UInt32.ofNat (all 1),
         state := ⟨(List.range agentSlots).map fun slot => UInt8.ofNat (all (2 + slot)),
           by simp⟩ }

def decodeAgentsGroup : Scan UInt8 Error AgentsSnapshot := do
  let value ← groupFields (2 + agentSlots)
  let all ← lift (collect (2 + agentSlots) value)
  lift (agentsFrom all)

/-- The locals of `decode_network_group`: station, SSID and BSSID are bytes 0 to 2. -/
structure NetworkFields where
  value : ℕ → Option ℕ
  bytes : ℕ → Option (List UInt8)
  links : Option (List UInt8)

def networkEntry (s : NetworkFields) : Scan UInt8 Error NetworkFields := do
  let key ← expectUint 0
  if 13 < key then do
    skipValue 4
    pure s
  else if key = 13 then do
    ensure (s.links = none) .malformed
    let links ← readByteString
    pure { s with links := some links }
  else if 10 ≤ key then do
    ensure (s.bytes (key - 10) = none) .malformed
    let bytes ← readByteString
    pure { s with bytes := Function.update s.bytes (key - 10) (some bytes) }
  else do
    ensure (s.value key = none) .malformed
    let v ← expectUint 0
    pure { s with value := Function.update s.value key (some v) }

def mac (b : List UInt8) : Except Error (Option (Octets 6)) :=
  if b.length = 0 then .ok none
  else if h : b.length = 6 then .ok (some ⟨b, h⟩)
  else .error .malformed

def routeKindFrom : ℕ → RouteKind
  | 0 => .unknown
  | 1 => .wifi
  | 2 => .ethernet
  | 3 => .other
  | _ => .none

def associationContextFrom : ℕ → AssociationContext
  | 0 => .available
  | 1 => .permissionNotRequested
  | 2 => .denied
  | 3 => .restricted
  | 4 => .authorizedUnavailable
  | 5 => .unsupported
  | _ => .error

def coverageFrom : ℕ → WifiCoverage
  | 0 => .unknown
  | 1 => .observable
  | _ => .outsideSupported

def linkFrom (k : UInt8) : Except Error RouteKind :=
  if k = 1 then .ok .wifi
  else if k = 2 then .ok .ethernet
  else if k = 3 then .ok .other
  else .error .malformed

def linksFrom : Option (List UInt8) → Except Error (Option (List RouteKind))
  | none => .ok none
  | some kinds => some <$> kinds.mapM linkFrom

def networkFrom (all : ℕ → ℕ) (station ssid bssid : List UInt8) (links : Option (List UInt8)) :
    Except Error NetworkSnapshot := do
  check (¬(all 1 > 2 ^ 32 - 1 ∨ all 2 > 4 ∨ all 3 > 1 ∨ all 6 > 6 ∨ all 7 > 2 ^ 32 - 1 ∨
    all 8 > 2 ∨ all 9 > 255))
  let trafficAvailability ← availabilityFrom (all 0)
  let station ← mac station
  let bssid ← mac bssid
  let links ← linksFrom links
  let snapshot : NetworkSnapshot :=
    { trafficAvailability, trafficAgeMs := UInt32.ofNat (all 1), routeKind := routeKindFrom (all 2),
      viaTunnel := all 3 == 1, rxBytesPerS := UInt64.ofNat (all 4),
      txBytesPerS := UInt64.ofNat (all 5), contextAvailability := associationContextFrom (all 6),
      contextAgeMs := UInt32.ofNat (all 7), coverage := coverageFrom (all 8),
      channel := UInt8.ofNat (all 9), station, ssid, bssid, links }
  check snapshot.isValid
  pure snapshot

def networkFields : Scan UInt8 Error NetworkFields := do
  let count ← expectUint 5
  ensure (count ≤ 16) .malformed
  loop networkEntry count ⟨fun _ => none, fun _ => none, none⟩

def decodeNetworkGroup : Scan UInt8 Error NetworkSnapshot := do
  let s ← networkFields
  let all ← lift (collect 10 s.value)
  let station ← lift (required (s.bytes 0))
  let ssid ← lift (required (s.bytes 1))
  let bssid ← lift (required (s.bytes 2))
  lift (networkFrom all station ssid bssid s.links)

/-- The locals of `decode_cpu_body`. -/
structure CpuBody where
  cpu : ℕ → Option ℕ
  ram : Option RamSnapshot
  storage : Option StorageSnapshot
  battery : Option BatterySnapshot
  agents : Option AgentsSnapshot
  network : Option NetworkSnapshot

/-- `if slot.is_some() { return Err } slot = Some(decode(..)?)` -/
def groupOnce {α : Type} (slot : Option α) (decode : Scan UInt8 Error α) : Scan UInt8 Error α := do
  ensure slot.isNone .malformed
  decode

def cpuEntry (s : CpuBody) : Scan UInt8 Error CpuBody := do
  let q ← expectUint 0
  if q = 5 then do
    let ram ← groupOnce s.ram decodeRamGroup
    pure { s with ram := some ram }
  else if q = 6 then do
    let storage ← groupOnce s.storage decodeStorageGroup
    pure { s with storage := some storage }
  else if q = 7 then do
    let battery ← groupOnce s.battery decodeBatteryGroup
    pure { s with battery := some battery }
  else if q = 8 then do
    let agents ← groupOnce s.agents decodeAgentsGroup
    pure { s with agents := some agents }
  else if q = 9 then do
    let network ← groupOnce s.network decodeNetworkGroup
    pure { s with network := some network }
  else if 4 < q then do
    skipValue 4
    pure s
  else do
    ensure (s.cpu q = none) .malformed
    let value ← expectUint 0
    ensure (¬(((q = 0 ∨ q = 3) ∧ value > 255) ∨ (q = 1 ∧ value > 1000) ∨
      ((q = 2 ∨ q = 4) ∧ value > 2 ^ 32 - 1))) .malformed
    pure { s with cpu := Function.update s.cpu q (some value) }

def cpuFields : Scan UInt8 Error CpuBody := do
  let count ← expectUint 5
  ensure (count ≤ 10) .malformed
  loop cpuEntry count ⟨fun _ => none, none, none, none, none, none⟩

def snapshotFrom (s : CpuBody) : Except Error Snapshot := do
  let availability ← availabilityFrom (← required (s.cpu 0))
  let utilization ← required (s.cpu 1)
  let age ← required (s.cpu 2)
  let freshness ← freshnessFrom (← required (s.cpu 3))
  let revision ← required (s.cpu 4)
  pure { cpu := { availability, utilizationPerMille := UInt16.ofNat utilization,
                  sourceAgeMs := UInt32.ofNat age, freshness,
                  configurationRevision := UInt32.ofNat revision },
         ram := s.ram, storage := s.storage, battery := s.battery, agents := s.agents,
         network := s.network }

def decodeCpuBody : List UInt8 → Except Error Snapshot := run do
  let s ← cpuFields
  atEnd .malformed
  lift (snapshotFrom s)

/-- The locals of `parse_envelope`. -/
structure EnvelopeFields where
  previous : Option ℕ := none
  major : Option UInt8 := none
  minor : Option UInt8 := none
  kind : Option UInt8 := none
  session : Option Identity := none
  sequence : Option UInt32 := none
  body : Option (List UInt8) := none
  utcMs : Option UInt64 := none
  uncertainty : Option UInt32 := none
  offset : Option ℤ := none

/-- The value of one envelope key. -/
def envelopeValue (s : EnvelopeFields) : ℕ → Scan UInt8 Error EnvelopeFields
  | 0 => do
    let value ← lift (byte (← expectUint 0))
    ensure (value = 1) .unsupportedMajor
    pure { s with major := some value }
  | 1 => do
    let value ← lift (byte (← expectUint 0))
    pure { s with minor := some value }
  | 2 => do
    let value ← lift (byte (← expectUint 0))
    pure { s with kind := some value }
  | 3 => do
    let session ← bytes 16
    pure { s with session := some session }
  | 4 => do
    let value ← lift (word (← expectUint 0))
    pure { s with sequence := some value }
  | 5 => do
    let code ← lift (required s.kind)
    let kind ← lift (messageType code.toNat)
    let body ← slice skipBody
    ensure (¬(kind ≠ .snapshot ∧ body.length > 512)) .tooLarge
    pure { s with body := some body }
  | 6 => do
    let value ← expectUint 0
    pure { s with utcMs := some (UInt64.ofNat value) }
  | 7 => do
    let value ← lift (word (← expectUint 0))
    pure { s with uncertainty := some value }
  | 8 => do
    let wire ← expectUint 0
    ensure (wire ≤ 2880) .malformed
    pure { s with offset := some ((wire : ℤ) - 1440) }
  | _ + 9 => do
    skipValue 4
    pure s

/-- One round of the envelope loop: keys strictly increase. -/
def envelopeEntry (s : EnvelopeFields) : Scan UInt8 Error EnvelopeFields := do
  let key ← expectUint 0
  ensure (∀ old ∈ s.previous, old < key) .malformed
  envelopeValue { s with previous := some key } key

def envelopeFields : Scan UInt8 Error EnvelopeFields := do
  let count ← expectUint 5
  ensure (count ≤ 16) .malformed
  loop envelopeEntry count {}

/-- The checks and the envelope that follow the loop. -/
def envelopeFrom (s : EnvelopeFields) : Except Error (Envelope × List UInt8) := do
  check s.major.isSome
  let minor ← required s.minor
  let kind ← messageType (← required s.kind).toNat
  let session ← required s.session
  let sequence ← required s.sequence
  let body ← required s.body
  pure ({ major := 1, minor, kind, session, sequence, utcMs := s.utcMs,
          utcUncertaintyMs := s.uncertainty, localOffsetMinutes := s.offset }, body)

/-- Frame integrity: the payload `c` between a right length and a right CRC. -/
def framePayload (frame : List UInt8) : Except Error (List UInt8) :=
  if frame.length < 7 then .error .truncated
  else
    let length := value (frame.take 2)
    if length > maxFrameBytes - 2 then .error .tooLarge
    else if length + 2 ≠ frame.length then .error .truncated
    else
      let c := (frame.drop 2).take (frame.length - 6)
      if (crc32 c).toNat ≠ value (frame.drop (frame.length - 4)) then .error .badCrc
      else .ok c

def parsePayload : List UInt8 → Except Error (Envelope × List UInt8) := run do
  let s ← envelopeFields
  atEnd .malformed
  lift (envelopeFrom s)

def parseEnvelope (frame : List UInt8) : Except Error (Envelope × List UInt8) := do
  parsePayload (← framePayload frame)

def op : ℕ → Except Error CommandOperation
  | 1 => .ok .unpair
  | 2 => .ok .calibrationReset
  | _ => .error .malformed

def result : ℕ → Except Error CommandResult
  | 0 => .ok .applied
  | 1 => .ok .alreadyApplied
  | 2 => .ok .rejected
  | _ => .error .malformed

/-- The last known body key of a type. -/
def knownMax : MessageType → Except Error ℕ
  | .hello | .helloReply => .ok 5
  | .pair | .commandReply => .ok 2
  | .command => .ok 1
  | .snapshot | .error => .error .malformed

/-- The locals of `decode_control_body`. -/
structure ControlFields where
  prior : Option ℕ := none
  fields : ℕ → Option ℕ := fun _ => none
  identities : ℕ → Option Identity := fun _ => none

def controlEntry (kind : MessageType) (known : ℕ) (s : ControlFields) :
    Scan UInt8 Error ControlFields := do
  let key ← expectUint 0
  ensure (∀ old ∈ s.prior, old < key) .malformed
  if known < key then do
    skipValue 4
    pure { s with prior := some key }
  else if kind = .pair ∧ key < 2 then do
    let identity ← bytes 16
    pure { s with prior := some key,
                  identities := Function.update s.identities key (some identity) }
  else do
    let value ← expectUint 0
    pure { s with prior := some key, fields := Function.update s.fields key (some value) }

def controlFields (kind : MessageType) (known : ℕ) : Scan UInt8 Error ControlFields := do
  let count ← expectUint 5
  ensure (count ≤ 16) .malformed
  loop (controlEntry kind known) count {}

/-- `.map(try_into).transpose()` -/
def optionalWord : Option ℕ → Except Error (Option UInt32)
  | none => .ok none
  | some v => some <$> word v

def helloFrom (s : ControlFields) : Except Error HelloBody := do
  let supportedMajor ← byte (← required (s.fields 0))
  let supportedMinor ← byte (← required (s.fields 1))
  let capabilities ← word (← required (s.fields 2))
  let configurationRevision ← word (← required (s.fields 3))
  let utcUncertaintyMs ← optionalWord (s.fields 5)
  pure { supportedMajor, supportedMinor, capabilities, configurationRevision,
         utcMs := (s.fields 4).map UInt64.ofNat, utcUncertaintyMs }

def pairFrom (s : ControlFields) : Except Error PairBody := do
  let matchingCode ← word (← required (s.fields 2))
  check (100000 ≤ matchingCode ∧ matchingCode ≤ 999999)
  let pairingIdentity ← required (s.identities 0)
  let intendedPeerIdentity ← required (s.identities 1)
  pure { pairingIdentity, intendedPeerIdentity, matchingCode }

def commandFrom (s : ControlFields) : Except Error CommandBody := do
  let commandIdentity ← word (← required (s.fields 0))
  let operation ← op (← required (s.fields 1))
  pure { commandIdentity, operation }

def commandReplyFrom (s : ControlFields) : Except Error CommandReplyBody := do
  let commandIdentity ← word (← required (s.fields 0))
  let operation ← op (← required (s.fields 1))
  let result ← result (← required (s.fields 2))
  pure { commandIdentity, operation, result }

def controlFrom (kind : MessageType) (s : ControlFields) : Except Error ControlBody :=
  match kind with
  | .hello => .hello <$> helloFrom s
  | .helloReply => .helloReply <$> helloFrom s
  | .pair => .pair <$> pairFrom s
  | .command => .command <$> commandFrom s
  | .commandReply => .commandReply <$> commandReplyFrom s
  | .snapshot | .error => .error .malformed

def errorBody : Scan UInt8 Error (List UInt8) := do
  let len ← expectUint 2
  let body ← take len .malformed
  atEnd .malformed
  pure body

def decodeControlBody (kind : MessageType) : List UInt8 → Except Error ControlBody := run <|
  if kind = .error then .error <$> errorBody
  else do
    let known ← lift (knownMax kind)
    let s ← controlFields kind known
    atEnd .malformed
    lift (controlFrom kind s)

def decode (frame : List UInt8) : Except Error Message := do
  let (envelope, body) ← parseEnvelope frame
  if envelope.kind = .snapshot then do
    let cpu ← decodeCpuBody body
    pure (.snapshot envelope cpu)
  else do
    let control ← decodeControlBody envelope.kind body
    pure (.control envelope control)

end CydMonitor.Rust
