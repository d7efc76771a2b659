import CydMonitor.Lib.CborHead
import CydMonitor.Cpp.Types
import Mathlib.Data.FinEnum

/-!
# The device decoder (`protocol/core/cpp/protocol.cpp`)

A `bool` reader is a scanner with one error. The arrays `seen` and `value` are
functions of the key.
-/

namespace CydMonitor.Cpp

open BigEndian Cbor Scan

def readUInt (expected : ℕ) : Scan UInt8 Unit ℕ
  | [] => .error ()
  | first :: rest =>
    if first.toNat / 32 ≠ expected then .error ()
    else
      let a := first.toNat % 32
      if a < 24 then .ok (a, rest)
      else
        let n := if a = 24 then 1 else if a = 25 then 2 else if a = 26 then 4
          else if a = 27 then 8 else 0
        if n = 0 ∨ rest.length < n then .error ()
        else
          let v := value (rest.take n)
          if (a = 24 ∧ v < 24) ∨ (a = 25 ∧ v ≤ 0xff) ∨ (a = 26 ∧ v ≤ 0xffff) ∨
              (a = 27 ∧ v ≤ 2 ^ 32 - 1) then .error ()
          else .ok (v, rest.drop n)

def readBytes : Scan UInt8 Unit (List UInt8) := do
  let n ← readUInt 2
  ensure (n ≤ kMaxFrameBytes) ()
  take n ()

/-- `Skip`, by the nesting levels left: depth 0 leaves four. -/
def skip : ℕ → Scan UInt8 Unit Unit
  | 0 => fail ()
  | levels + 1 => peek fun h => match h.map (·.toNat / 32) with
    | none => fail ()
    | some m =>
      if m ≤ 1 then do
        let _ ← readUInt m
        pure ()
      else if m = 2 ∨ m = 3 then do
        let n ← readUInt m
        ensure (n ≤ kMaxFrameBytes) ()
        let _ ← take n ()
        pure ()
      else if m = 4 ∨ m = 5 then do
        let n ← readUInt m
        ensure (n ≤ 16) ()
        loop (fun _ => skip levels) (n * if m = 5 then 2 else 1) ()
      else fail ()

def skipBody : Scan UInt8 Unit Unit := peek fun h =>
  if h.map (·.toNat / 32) = some 5 then do
    let n ← readUInt 5
    ensure (n ≤ 16) ()
    loop (fun _ => skip 4) (n * 2) ()
  else skip 4

def validCommand (body : CommandBody) (reply : Bool) : Bool :=
  1 ≤ body.operation && body.operation ≤ 2 &&
    if reply then body.result.any (· ≤ 2) else body.result.isNone

/-- The locals of `ReadControlBody`. -/
structure ControlState where
  index : ℕ := 0
  previous : ℕ := 2 ^ 64 - 1
  fields : ℕ → Bool := fun _ => false
  hello : HelloBody := {}
  pair : PairBody := {}
  command : CommandBody := {}

def knownMax (type : MessageType) : ℕ :=
  if type = .kHello ∨ type = .kHelloReply then 5
  else if type = .kPair ∨ type = .kCommandReply then 2
  else 1

def helloField (hello : HelloBody) (key value : ℕ) : HelloBody :=
  match key with
  | 0 => { hello with supportedMajor := UInt8.ofNat value }
  | 1 => { hello with supportedMinor := UInt8.ofNat value }
  | 2 => { hello with capabilityBits := UInt32.ofNat value }
  | 3 => { hello with configurationRevision := UInt32.ofNat value }
  | 4 => { hello with utcMs := some (UInt64.ofNat value) }
  | 5 => { hello with utcUncertaintyMs := some (UInt32.ofNat value) }
  | _ => hello

def commandField (command : CommandBody) (key value : ℕ) : CommandBody :=
  match key with
  | 0 => { command with commandIdentity := UInt32.ofNat value }
  | 1 => { command with operation := UInt8.ofNat value }
  | 2 => { command with result := some (UInt8.ofNat value) }
  | _ => command

def controlEntry (type : MessageType) (s : ControlState) : Scan UInt8 Unit ControlState := do
  let key ← readUInt 0
  ensure (¬(s.index ≠ 0 ∧ key ≤ s.previous)) ()
  let s := { s with index := s.index + 1, previous := key }
  if key > knownMax type then do
    skip 4
    pure s
  else
    let s := { s with fields := Function.update s.fields key true }
    if type = .kPair ∧ (key = 0 ∨ key = 1) then do
      let n ← readUInt 2
      ensure (n ≤ kMaxFrameBytes) ()
      ensure (n = kSessionIdBytes) ()
      let identity ← octets kSessionIdBytes ()
      if key = 0 then pure { s with pair.senderIdentity := identity }
      else pure { s with pair.intendedPeerIdentity := identity }
    else do
      let value ← readUInt 0
      if type = .kHello ∨ type = .kHelloReply then do
        ensure (¬((key < 2 ∧ value > 0xff) ∨ ((key = 2 ∨ key = 3) ∧ value > 2 ^ 32 - 1) ∨
          (key = 5 ∧ value > 2 ^ 32 - 1))) ()
        pure { s with hello := helloField s.hello key value }
      else if type = .kPair then do
        ensure (¬(key ≠ 2 ∨ value < 100000 ∨ value > 999999)) ()
        pure { s with pair.matchingCode := UInt32.ofNat value }
      else do
        ensure (¬(key > (if type = .kCommandReply then 2 else 1) ∨
          (key = 0 ∧ value > 2 ^ 32 - 1) ∨ (key > 0 ∧ value > 0xff))) ()
        pure { s with command := commandField s.command key value }

/-- What `ReadControlBody` stores after its loop. -/
def controlStore (e : Envelope) (s : ControlState) : Except Unit Envelope :=
  if e.type = .kHello ∨ e.type = .kHelloReply then
    if !s.fields 0 || !s.fields 1 || !s.fields 2 || !s.fields 3 then .error ()
    else .ok { e with hello := some s.hello }
  else if e.type = .kPair then
    if !s.fields 0 || !s.fields 1 || !s.fields 2 then .error ()
    else .ok { e with pair := some s.pair }
  else if !s.fields 0 || !s.fields 1 || (e.type == .kCommandReply && !s.fields 2) ||
      !validCommand s.command (e.type == .kCommandReply) then .error ()
  else .ok { e with command := some s.command }

def readControlBody (e : Envelope) : Scan UInt8 Unit Envelope := do
  let count ← readUInt 5
  ensure (count ≤ 16) ()
  let s ← loop (controlEntry e.type) count {}
  lift (controlStore e s)

/-- The arrays of a group reader. -/
structure Fields where
  seen : ℕ → Bool := fun _ => false
  value : ℕ → ℕ := fun _ => 0

/-- One round of the loop that the groups share, with fields `0` to `n - 1`. -/
def fieldEntry (n : ℕ) (s : Fields) : Scan UInt8 Unit Fields := do
  let key ← readUInt 0
  if n ≤ key then do
    skip 4
    pure s
  else do
    ensure (s.seen key = false) ()
    let v ← readUInt 0
    pure { seen := Function.update s.seen key true, value := Function.update s.value key v }

/-- The loop, then the check that each field was there. -/
def groupFields (n : ℕ) : Scan UInt8 Unit (ℕ → ℕ) := do
  let count ← readUInt 5
  ensure (count ≤ 16) ()
  let s ← loop (fieldEntry n) count {}
  ensure (∀ k < n, s.seen k) ()
  pure s.value

def readRamGroup : Scan UInt8 Unit RamSnapshot := do
  let value ← groupFields 5
  ensure (¬(value 0 > Availability.kError.toNat ∨ value 1 > value 2 ∨ value 3 > 2 ^ 32 - 1 ∨
    value 4 > Freshness.kStale.toNat)) ()
  pure { availability := UInt8.ofNat (value 0), usedBytes := UInt64.ofNat (value 1),
         totalBytes := UInt64.ofNat (value 2), sourceAgeMs := UInt32.ofNat (value 3),
         freshness := UInt8.ofNat (value 4) }

def readStorageGroup : Scan UInt8 Unit StorageSnapshot := do
  let value ← groupFields 8
  ensure (¬(value 0 > Availability.kError.toNat ∨ value 4 > Availability.kError.toNat ∨
    value 2 > value 1 ∨ value 3 > 2 ^ 32 - 1 ∨ value 7 > 2 ^ 32 - 1)) ()
  pure { capacityAvailability := UInt8.ofNat (value 0), totalBytes := UInt64.ofNat (value 1),
         availableBytes := UInt64.ofNat (value 2), capacityAgeMs := UInt32.ofNat (value 3),
         ioAvailability := UInt8.ofNat (value 4), readBytesPerS := UInt64.ofNat (value 5),
         writeBytesPerS := UInt64.ofNat (value 6), ioAgeMs := UInt32.ofNat (value 7) }

def readBatteryGroup : Scan UInt8 Unit BatterySnapshot := do
  let value ← groupFields 10
  ensure (¬(value 0 > Availability.kError.toNat ∨ value 5 > Availability.kError.toNat ∨
    value 1 > 1000 ∨ value 2 > BatteryState.kAcIdle.toNat ∨ value 3 > 2 ^ 16 - 1 ∨
    value 4 > 2 ^ 32 - 1 ∨ value 6 > 1000 ∨ value 7 > BatteryCondition.kPoor.toNat ∨
    value 8 > 2 ^ 16 - 1 ∨ value 9 > 2 ^ 32 - 1)) ()
  pure { chargeAvailability := UInt8.ofNat (value 0), chargePerMille := UInt16.ofNat (value 1),
         state := UInt8.ofNat (value 2), timeRemainingMin := UInt16.ofNat (value 3),
         chargeAgeMs := UInt32.ofNat (value 4), conditionAvailability := UInt8.ofNat (value 5),
         maxCapacityPerMille := UInt16.ofNat (value 6), condition := UInt8.ofNat (value 7),
         cycleCount := UInt16.ofNat (value 8), conditionAgeMs := UInt32.ofNat (value 9) }

def readAgentsGroup : Scan UInt8 Unit AgentsSnapshot := do
  let value ← groupFields (2 + kAgentSlots)
  ensure (¬(value 0 > Availability.kError.toNat ∨ value 1 > 2 ^ 32 - 1)) ()
  ensure (∀ i < kAgentSlots, value (2 + i) ≤ AgentState.kIdle.toNat) ()
  pure { availability := UInt8.ofNat (value 0), sourceAgeMs := UInt32.ofNat (value 1),
         state := ⟨(List.range kAgentSlots).map fun i => UInt8.ofNat (value (2 + i)),
           by simp⟩ }

/-- The rules of the Network group shared by the encoder and the decoder. -/
def validNetwork (n : NetworkSnapshot) : Bool :=
  if n.trafficAvailability > .kError || n.routeKind > .kNone || n.contextAvailability > .kError ||
      n.coverage > .kOutsideSupported then false
  else if n.viaTunnel && (n.routeKind == .kUnknown || n.routeKind == .kNone) then false
  else if n.trafficAvailability != .kAvailable && (n.rxBytesPerS != 0 || n.txBytesPerS != 0) then
    false
  else if n.coverage == .kUnknown && n.channel != 0 then false
  else if n.ssid.length > kMaxSsidBytes then false
  else if n.links.any fun links => links.length > kMaxLinks ||
      links.any (fun kind => kind != .kWifi && kind != .kEthernet && kind != .kOther) then false
  else if (!n.ssid.isEmpty || n.bssid.isSome) && n.contextAvailability != .kAvailable then false
  else true

/-- The arrays of `ReadNetworkGroup`: bytes 0 to 3 are station, SSID, BSSID and links. -/
structure NetworkFields where
  seen : ℕ → Bool := fun _ => false
  value : ℕ → ℕ := fun _ => 0
  bytes : ℕ → List UInt8 := fun _ => []

def networkEntry (s : NetworkFields) : Scan UInt8 Unit NetworkFields := do
  let key ← readUInt 0
  if key > 13 then do
    skip 4
    pure s
  else do
    ensure (s.seen key = false) ()
    if key ≥ 10 then do
      let b ← readBytes
      pure { s with seen := Function.update s.seen key true,
                    bytes := Function.update s.bytes (key - 10) b }
    else do
      let v ← readUInt 0
      pure { s with seen := Function.update s.seen key true,
                    value := Function.update s.value key v }

/-- A byte string of the array's size fills it, another one leaves it unset. -/
def macOf (b : List UInt8) : Option (Octets kMacBytes) := Octets.ofList? kMacBytes b

def networkOf (s : NetworkFields) : NetworkSnapshot :=
  { trafficAvailability := UInt8.ofNat (s.value 0), trafficAgeMs := UInt32.ofNat (s.value 1),
    routeKind := UInt8.ofNat (s.value 2), viaTunnel := s.value 3 == 1,
    rxBytesPerS := UInt64.ofNat (s.value 4), txBytesPerS := UInt64.ofNat (s.value 5),
    contextAvailability := UInt8.ofNat (s.value 6), contextAgeMs := UInt32.ofNat (s.value 7),
    coverage := UInt8.ofNat (s.value 8), channel := UInt8.ofNat (s.value 9),
    station := macOf (s.bytes 0), ssid := s.bytes 1, bssid := macOf (s.bytes 2),
    links := if s.seen 13 then some (s.bytes 3) else none }

def readNetworkGroup : Scan UInt8 Unit NetworkSnapshot := do
  let count ← readUInt 5
  ensure (count ≤ 16) ()
  let s ← loop networkEntry count {}
  ensure (∀ key : ℕ, key < 13 → s.seen key) ()
  ensure (¬(s.value 0 > Availability.kError.toNat ∨ s.value 1 > 2 ^ 32 - 1 ∨
    s.value 2 > RouteKind.kNone.toNat ∨ s.value 3 > 1 ∨
    s.value 6 > AssociationContext.kError.toNat ∨ s.value 7 > 2 ^ 32 - 1 ∨
    s.value 8 > WifiCoverage.kOutsideSupported.toNat ∨ s.value 9 > 0xff)) ()
  ensure (∀ b ∈ [s.bytes 0, s.bytes 2], ¬(b.length ≠ 0 ∧ b.length ≠ kMacBytes)) ()
  ensure ((s.bytes 1).length ≤ kMaxSsidBytes) ()
  ensure (s.seen 13 → ∀ kind ∈ s.bytes 3, ¬(kind < 1 ∨ kind > 3)) ()
  ensure (validNetwork (networkOf s)) ()
  pure (networkOf s)

def readGroup {α : Type} (slot : Option α) (read : Scan UInt8 Unit α) : Scan UInt8 Unit α := do
  ensure (slot.isSome = false) ()
  read

/-- The part of `Decode`'s state that the snapshot loop changes. -/
structure CpuState where
  fields : ℕ → Bool := fun _ => false
  cpu : CpuSnapshot := {}
  groups : SnapshotGroups := {}

def cpuField (cpu : CpuSnapshot) (q w : ℕ) : CpuSnapshot :=
  match q with
  | 0 => { cpu with availability := UInt8.ofNat w }
  | 1 => { cpu with utilizationPerMille := UInt16.ofNat w }
  | 2 => { cpu with sourceAgeMs := UInt32.ofNat w }
  | 3 => { cpu with freshness := UInt8.ofNat w }
  | 4 => { cpu with configurationRevision := UInt32.ofNat w }
  | _ => cpu

def cpuEntry (s : CpuState) : Scan UInt8 Unit CpuState := do
  let q ← readUInt 0
  if q = 5 then do
    let ram ← readGroup s.groups.ram readRamGroup
    pure { s with groups.ram := some ram }
  else if q = 6 then do
    let storage ← readGroup s.groups.storage readStorageGroup
    pure { s with groups.storage := some storage }
  else if q = 7 then do
    let battery ← readGroup s.groups.battery readBatteryGroup
    pure { s with groups.battery := some battery }
  else if q = 8 then do
    let agents ← readGroup s.groups.agents readAgentsGroup
    pure { s with groups.agents := some agents }
  else if q = 9 then do
    let network ← readGroup s.groups.network readNetworkGroup
    pure { s with groups.network := some network }
  else if q > 4 then do
    skip 4
    pure s
  else do
    ensure (s.fields q = false) ()
    let w ← readUInt 0
    ensure (¬((q = 0 ∨ q = 3) ∧ w > 0xff)) ()
    ensure (¬((q = 1 ∧ w > 1000) ∨ ((q = 2 ∨ q = 4) ∧ w > 2 ^ 32 - 1))) ()
    pure { s with fields := Function.update s.fields q true, cpu := cpuField s.cpu q w }

/-- The snapshot branch of `Decode`. -/
def snapshotBody (d : Decoded) : Scan UInt8 Unit Decoded := do
  let m ← readUInt 5
  ensure (m ≤ 10) ()
  let s ← loop cpuEntry m { cpu := d.cpu, groups := d.groups }
  ensure (∀ k : ℕ, k < 5 → s.fields k) ()
  ensure (¬(s.cpu.availability > .kError ∨ s.cpu.utilizationPerMille > 1000 ∨
    s.cpu.freshness > .kStale)) ()
  pure { d with hasCpu := true, cpu := s.cpu, groups := s.groups }

/-- The type is one of the named message types. -/
def namedType (type : MessageType) : Prop :=
  ¬(type < MessageType.kHello ∨ type > MessageType.kError)

instance (type : MessageType) : Decidable (namedType type) := by
  unfold namedType
  infer_instance

/-- The message body, by its type. -/
def typedBody (d : Decoded) : Scan UInt8 Unit Decoded := peek fun first =>
  match first with
  | none => fail ()
  | some b =>
    if b.toNat / 32 = 5 ∧ d.envelope.type = .kSnapshot then snapshotBody d
    else if d.envelope.type = .kHello ∨ d.envelope.type = .kHelloReply ∨
        d.envelope.type = .kPair ∨ d.envelope.type = .kCommand ∨
        d.envelope.type = .kCommandReply then do
      let e ← readControlBody d.envelope
      pure { d with envelope := e }
    else do
      let body ← readBytes
      pure { d with envelope.body := body }

/-- Every body but a snapshot's is bounded before it is read. -/
def boundBody (d : Decoded) : Scan UInt8 Error Unit :=
  if d.envelope.type ≠ .kSnapshot then do
    let skipped ← preview (skipBody.orFail .kMalformed)
    ensure (skipped.length ≤ 512) .kTooLarge
  else pure ()

def body (d : Decoded) : Scan UInt8 Error Decoded := do
  ensure (namedType d.envelope.type) .kMalformed
  boundBody d
  (typedBody d).orFail .kMalformed

def sessionValue (d : Decoded) : Scan UInt8 Error Decoded := do
  let n ← (readUInt 2).orFail .kMalformed
  ensure (n ≤ kMaxFrameBytes) .kMalformed
  ensure (n = kSessionIdBytes) .kMalformed
  let b ← octets kSessionIdBytes .kMalformed
  pure { d with envelope.session := b }

def envelopeField (e : Envelope) (k v : ℕ) : Envelope :=
  match k with
  | 0 => { e with version.major := UInt8.ofNat v }
  | 1 => { e with version.minor := UInt8.ofNat v }
  | 2 => { e with type := UInt8.ofNat v }
  | 4 => { e with sequence := UInt32.ofNat v }
  | 6 => { e with utcMs := some (UInt64.ofNat v) }
  | 7 => { e with utcUncertaintyMs := some (UInt32.ofNat v) }
  | 8 => { e with localOffsetMinutes := some ((v : ℤ) - 1440) }
  | _ => e

/-- The number branch of the envelope loop. -/
def numberValue (d : Decoded) (k : ℕ) : Scan UInt8 Error Decoded := do
  let v ← (readUInt 0).orFail .kMalformed
  ensure (¬((k = 0 ∨ k = 1 ∨ k = 2) ∧ v > 0xff)) .kMalformed
  ensure (¬(k = 0 ∧ v ≠ 1)) .kUnsupportedMajor
  ensure (¬(k = 4 ∧ v > 2 ^ 32 - 1)) .kMalformed
  ensure (¬(k = 7 ∧ v > 2 ^ 32 - 1)) .kMalformed
  ensure (¬(k = 8 ∧ v > 2880)) .kMalformed
  pure { d with envelope := envelopeField d.envelope k v }

/-- The locals of `Decode`. -/
structure DecodeState where
  index : ℕ := 0
  previousKey : ℕ := 2 ^ 64 - 1
  got : ℕ → Bool := fun _ => false
  d : Decoded := {}

def envelopeEntry (s : DecodeState) : Scan UInt8 Error DecodeState := do
  let k ← (readUInt 0).orFail .kMalformed
  ensure (¬(s.index ≠ 0 ∧ k ≤ s.previousKey)) .kMalformed
  let s := { s with index := s.index + 1, previousKey := k }
  if k > 8 then do
    (skip 4).orFail .kMalformed
    pure s
  else do
    ensure (s.got k = false) .kMalformed
    let s := { s with got := Function.update s.got k true }
    let d ← if k = 3 then sessionValue s.d else if k = 5 then body s.d else numberValue s.d k
    pure { s with d := d }

def envelopeFields : Scan UInt8 Error DecodeState := do
  let count ← (readUInt 5).orFail .kMalformed
  ensure (count ≤ 16) .kMalformed
  loop envelopeEntry count {}

def crcBit (c : UInt32) : UInt32 := (c >>> 1) ^^^ (0xedb88320 &&& (0 - (c &&& 1)))

def crc32 (b : List UInt8) : UInt32 :=
  ~~~ b.foldl (fun c x => crcBit^[8] (c ^^^ x.toUInt32)) 0xffffffff

/-- Frame integrity: the payload `c` between a right length and a right CRC. -/
def framePayload (f : List UInt8) : Except Error (List UInt8) :=
  if f.length < 7 then .error .kTruncated
  else
    let n := value (f.take 2)
    if n > kMaxFrameBytes - 2 then .error .kTooLarge
    else if n + 2 ≠ f.length then .error .kTruncated
    else
      let c := (f.drop 2).take (n - 4)
      if (crc32 c).toNat ≠ value (f.drop (f.length - 4)) then .error .kBadCrc
      else .ok c

/-- The checks that follow the envelope loop. -/
def accept (s : DecodeState) : Except Error Decoded :=
  if !s.got 0 || !s.got 1 || !s.got 2 || !s.got 3 || !s.got 4 || !s.got 5 then .error .kMalformed
  else if ¬namedType s.d.envelope.type then .error .kMalformed
  else if s.d.envelope.type == .kSnapshot && !s.d.hasCpu then .error .kMalformed
  else .ok s.d

def decodePayload : List UInt8 → Except Error Decoded := run do
  let s ← envelopeFields
  atEnd .kMalformed
  lift (accept s)

def decode (f : List UInt8) : Except Error Decoded := do
  decodePayload (← framePayload f)

end CydMonitor.Cpp
