import CydMonitor.Lib.Outcome
import CydMonitor.Lib.Text
import CydMonitor.Metrics.PowerProfile
import Mathlib.Data.Int.Basic

/-!
# Battery readings (`host/metrics/src/battery.rs`)

Arithmetic that does not fit its type and ranges outside their slice stop the program, as they do
with the checks on. Floating-point numbers are a parameter.
-/

namespace CydMonitor.Battery

open Metrics (BatteryCondition BatteryConditionReading PowerProfile ProfileError)
open Text (byte isDigit fromU32)

def maxProfilerBytes : ℕ := 256 * 1024
def maxJsonDepth : ℕ := 24
def maxJsonNodes : ℕ := 20000

inductive BatteryState where
  | unknown | charging | discharging | charged | acNotCharging
  deriving DecidableEq

structure BatteryChargeReading where
  perMille : ℕ
  state : BatteryState
  timeRemainingMin : Option ℕ
  deriving DecidableEq

/-- A failed check of the program. -/
inductive Panic where
  | overflow | range
  deriving DecidableEq, Inhabited

/-- An `i64`, if it is one. -/
def checked (n : ℤ) : Except Panic ℤ := if -2 ^ 63 ≤ n ∧ n < 2 ^ 63 then .ok n else .error .overflow

/-- Charge and state of a power source; `none`: impossible capacities. -/
def chargeReading (current max : Int64) (isCharging isCharged onAc : Option Bool)
    (timeToEmpty timeToFull : Option Int64) : Except Panic (Option BatteryChargeReading) :=
  let current := current.toInt
  let max := max.toInt
  if max ≤ 0 ∨ current < 0 ∨ current > max then .ok none
  else do
    let scaled ← checked (current * 1000)
    let sum ← checked (scaled + max.tdiv 2)
    let perMille := ((sum.tdiv max) % 2 ^ 16).toNat
    let state :=
      if isCharging = some true then BatteryState.charging
      else if onAc = some true then
        if isCharged = some true ∨ perMille ≥ 1000 then .charged else .acNotCharging
      else if onAc = some false then .discharging
      else .unknown
    let minutes :=
      match state with
      | .charging => timeToFull
      | .discharging => timeToEmpty
      | _ => none
    let timeRemainingMin := (minutes.filter fun m => 0 ≤ m.toInt && m.toInt < 2 ^ 16 - 1).map
      fun m => (m.toInt % 2 ^ 16).toNat
    return some { perMille, state, timeRemainingMin }

/-- What the reader needs of `f64`. -/
structure F64 (F : Type) where
  parse : List UInt8 → Option F
  isFinite : F → Bool
  /-- A whole number below `u16::MAX`. -/
  whole : F → Option UInt16
  /-- A number from 0 to 100 in tenths, rounded. -/
  tenths : F → Option UInt16

inductive Value (F : Type) where
  | null
  | bool (b : Bool)
  | number (n : F)
  | str (text : List Char)
  | array (items : List (Value F))
  | object (fields : List (List Char × Value F))

namespace Value

variable {F : Type}

def get (key : String) : Value F → Option (Value F)
  | .object fields => (fields.find? (·.1 = key.toList)).map (·.2)
  | _ => none

def asStr : Value F → Option (List Char)
  | .str text => some text
  | _ => none

def asF64 : Value F → Option F
  | .number n => some n
  | _ => none

def asArray : Value F → Option (List (Value F))
  | .array items => some items
  | _ => none

end Value

/-- The bytes of one `\u` escape or of two that are read together. -/
structure Escape where
  first : List UInt8
  second : Option (List UInt8) := none
  deriving DecidableEq

/-- Where the reader is; `met` keeps the `\u` escapes read so far. -/
structure Reader where
  pos : ℕ := 0
  nodes : ℕ := 0
  met : List Escape := []
  deriving Inhabited

/-- Why the reader stopped: the document is refused or a check failed. -/
inductive Stop where
  | refused
  | panic (p : Panic)
  deriving DecidableEq, Inhabited

abbrev Fail := Stop × Reader

def refuse {α : Type} (r : Reader) : Except Fail α := .error (.refused, r)

/-- Addition of `usize`. -/
def addUsize (r : Reader) (a b : ℕ) : Except Fail ℕ :=
  if a + b < 2 ^ 64 then .ok (a + b) else .error (.panic .overflow, r)

def Reader.advance (r : Reader) (n : ℕ) : Except Fail Reader := do
  let pos ← addUsize r r.pos n
  return { r with pos }

variable (input : List UInt8)

/-- A range of the input, if it is one. -/
def getRange (start stop : ℕ) : Option (List UInt8) :=
  if start ≤ stop ∧ stop ≤ input.length then some ((input.drop start).take (stop - start)) else none

def isSpace (b : UInt8) : Bool := b = 0x20 || b = 0x09 || b = 0x0a || b = 0x0d

def skipSpace (r : Reader) : Except Fail Reader :=
  r.advance ((input.drop r.pos).takeWhile isSpace).length

def eat (b : UInt8) (r : Reader) : Except Fail (Bool × Reader) := do
  let r ← skipSpace input r
  if input[r.pos]? = some b then
    let r ← r.advance 1
    return (true, r)
  else return (false, r)

def ascii (word : String) : List UInt8 := word.toList.map byte

variable {F : Type} (f64 : F64 F)

def literal (word : String) (v : Value F) (r : Reader) : Except Fail (Value F × Reader) :=
  if r.pos + (ascii word).length < 2 ^ 64 ∧
      getRange input r.pos (r.pos + (ascii word).length) = some (ascii word) then
    .ok (v, { r with pos := r.pos + (ascii word).length })
  else refuse r

def isNumberByte (b : UInt8) : Bool := (ascii "-+.eE").contains b || isDigit b

def number (r : Reader) : Except Fail (Value F × Reader) := do
  let start := r.pos
  let r ← r.advance ((input.drop r.pos).takeWhile isNumberByte).length
  match getRange input start r.pos with
  | none => .error (.panic .range, r)
  | some text =>
    match f64.parse text with
    | none => refuse r
    | some n => if f64.isFinite n then .ok (.number n, r) else refuse r

def hexDigit (b : UInt8) : Option ℕ :=
  if isDigit b then some (b.toNat - (byte '0').toNat)
  else if byte 'a' ≤ b ∧ b ≤ byte 'f' then some (b.toNat - (byte 'a').toNat + 10)
  else if byte 'A' ≤ b ∧ b ≤ byte 'F' then some (b.toNat - (byte 'A').toNat + 10)
  else none

def hexDigits (digits : List UInt8) : Option ℕ :=
  digits.foldlM (fun n d => (hexDigit d).map (16 * n + ·)) 0

/-- `u32::from_str_radix` in base 16, of so few digits that they fit. -/
def fromStrRadix (text : List UInt8) : Option ℕ :=
  let digits := if text.head? = some (byte '+') then text.tail else text
  if digits = [] then none else hexDigits digits

/-- Four bytes that are a number, and the number. -/
def hex4 (r : Reader) : Except Fail ((ℕ × List UInt8) × Reader) :=
  if r.pos + 4 < 2 ^ 64 then
    match getRange input r.pos (r.pos + 4) with
    | none => refuse r
    | some digits =>
      match fromStrRadix digits with
      | none => refuse r
      | some unit => .ok ((unit, digits), { r with pos := r.pos + 4 })
  else refuse r

def replacement : Char := '\ufffd'

/-- Addition and subtraction of `u32`. -/
def addU32 (a b : ℕ) : Option ℕ := if a + b < 2 ^ 32 then some (a + b) else none

def wrappingSub (a b : ℕ) : ℕ := (a + 2 ^ 32 - b) % 2 ^ 32

/-- The character of a first unit and of the one after it; `none`: the sum overflows. -/
def decoded (unit : ℕ) : Option ℕ → Option Char
  | none => some ((fromU32 unit).getD replacement)
  | some low => do
    let code ← addU32 0x10000 ((unit - 0xD800) * 2 ^ 10)
    let code ← addU32 code (wrappingSub low 0xDC00)
    return (fromU32 code).getD replacement

def isHigh (unit : ℕ) : Bool := 0xD800 ≤ unit && unit < 0xDC00

/-- After a first unit: a second one, if the first asks for it and there is one. -/
def secondUnit (unit : ℕ) (r : Reader) : Except Fail (Option (ℕ × List UInt8) × Reader) :=
  if isHigh unit then do
    let stop ← addUsize r r.pos 2
    if getRange input r.pos stop = some (ascii "\\u") then
      let r ← r.advance 2
      let (low, r) ← hex4 input r
      return (some low, r)
    else return (none, r)
  else return (none, r)

/-- After `\u`. -/
def unicode (r : Reader) : Except Fail (Char × Reader) := do
  let ((unit, first), r) ← hex4 input r
  let (second, r) ← secondUnit input unit r
  let r := { r with met := r.met ++ [{ first, second := second.map (·.2) }] }
  match decoded unit (second.map (·.1)) with
  | none => .error (.panic .overflow, r)
  | some ch => return (ch, r)

def shortEscapes : List (UInt8 × Char) :=
  [(byte '"', '"'), (byte '\\', '\\'), (byte '/', '/'), (byte 'b', '\x08'), (byte 'f', '\x0c'),
    (byte 'n', '\n'), (byte 'r', '\r'), (byte 't', '\t')]

/-- After a backslash. -/
def escape (r : Reader) : Except Fail (Char × Reader) :=
  match input[r.pos]? with
  | none => refuse r
  | some esc => do
    let r ← r.advance 1
    if esc = byte 'u' then unicode input r
    else
      match shortEscapes.lookup esc with
      | none => refuse r
      | some ch => return (ch, r)

def fromUtf8 (bytes : List UInt8) : Option (List Char) :=
  (String.fromUTF8? bytes.toByteArray).map String.toList

/-- One round of a string: the bytes read so far. -/
def stringRound (s : List UInt8 × Reader) :
    Except Fail ((List UInt8 × Reader) ⊕ (List Char × Reader)) :=
  let (bytes, r) := s
  match input[r.pos]? with
  | none => refuse r
  | some b => do
    let r ← r.advance 1
    if b = byte '"' then
      match fromUtf8 bytes with
      | none => refuse r
      | some text => return .inr (text, r)
    else if b < 0x20 then refuse r
    else if b = byte '\\' then
      let (ch, r) ← escape input r
      return .inl (bytes ++ String.utf8EncodeChar ch, r)
    else return .inl (bytes ++ [b], r)

/-- What is left of the input. -/
def Reader.left (r : Reader) : ℕ := input.length - r.pos

def string (r : Reader) : Except Fail (List Char × Reader) :=
  if input[r.pos]? = some (byte '"') then do
    let r ← r.advance 1
    Loop.loop (stringRound input) (·.2.left input) ([], r)
  else refuse r

def objectRound (value : Reader → Except Fail (Value F × Reader))
    (s : List (List Char × Value F) × Reader) :
    Except Fail ((List (List Char × Value F) × Reader) ⊕ (Value F × Reader)) := do
  let (fields, r) := s
  let r ← skipSpace input r
  let (key, r) ← string input r
  let (colon, r) ← eat input (byte ':') r
  if !colon then refuse r
  else
    let (v, r) ← value r
    let fields := fields ++ [(key, v)]
    let (comma, r) ← eat input (byte ',') r
    if comma then return .inl (fields, r)
    else
      let (brace, r) ← eat input (byte '\x7d') r
      if brace then return .inr (.object fields, r) else refuse r

def arrayRound (value : Reader → Except Fail (Value F × Reader)) (s : List (Value F) × Reader) :
    Except Fail ((List (Value F) × Reader) ⊕ (Value F × Reader)) := do
  let (items, r) := s
  let (item, r) ← value r
  let items := items ++ [item]
  let (comma, r) ← eat input (byte ',') r
  if comma then return .inl (items, r)
  else
    let (bracket, r) ← eat input (byte ']') r
    if bracket then return .inr (.array items, r) else refuse r

/-- A value whose first byte is at the reader. -/
def valueAt (value : Reader → Except Fail (Value F × Reader)) (b : UInt8) (r : Reader) :
    Except Fail (Value F × Reader) :=
  if b = byte '\x7b' then do
    let r ← r.advance 1
    let (brace, r) ← eat input (byte '\x7d') r
    if brace then return (.object [], r)
    else Loop.loop (objectRound input value) (·.2.left input) ([], r)
  else if b = byte '[' then do
    let r ← r.advance 1
    let (bracket, r) ← eat input (byte ']') r
    if bracket then return (.array [], r)
    else Loop.loop (arrayRound input value) (·.2.left input) ([], r)
  else if b = byte '"' then do
    let (text, r) ← string input r
    return (.str text, r)
  else if b = byte 't' then literal input "true" (.bool true) r
  else if b = byte 'f' then literal input "false" (.bool false) r
  else if b = byte 'n' then literal input "null" .null r
  else if b = byte '-' ∨ isDigit b then number input f64 r
  else refuse r

/-- A value; `room`: how many levels are left. -/
def value : (room : ℕ) → Reader → Except Fail (Value F × Reader)
  | 0, r => do
    let nodes ← addUsize r r.nodes 1
    refuse { r with nodes }
  | room + 1, r => do
    let nodes ← addUsize r r.nodes 1
    let r := { r with nodes }
    if r.nodes > maxJsonNodes then refuse r
    else
      let r ← skipSpace input r
      match input[r.pos]? with
      | none => refuse r
      | some b => valueAt input f64 (value room) b r

def parse : Except Fail (Value F × Reader) := do
  let (v, r) ← value input f64 (maxJsonDepth + 1) {}
  let r ← skipSpace input r
  if r.pos = input.length then return (v, r) else refuse r

def percentToPerMille (text : List Char) : Option UInt16 := do
  let number ← Text.stripSuffix '%' (Text.trim text)
  let number := Text.trim number
  if number.isEmpty || !number.all fun c => c.isDigit || c = '.' then none
  else
    let percent ← f64.parse (number.map byte)
    f64.tenths percent

def conditionFromText (text : List Char) : BatteryCondition :=
  let word := String.ofList ((Text.trim text).map Char.toLower)
  if word = "normal" ∨ word = "good" then .normal
  else if word = "service recommended" ∨ word = "replace soon" ∨ word = "fair" then
    .serviceRecommended
  else if word = "replace now" ∨ word = "poor" ∨ word = "check battery" ∨
      word = "service battery" then .poor
  else .unknown

def isBattery (item : Value F) : Bool :=
  (item.get "_name").bind Value.asStr = some "spbattery_information".toList ||
    (item.get "sppower_battery_health_info").isSome ||
    (item.get "sppower_battery_charge_info").isSome

def readProfile (root : Value F) : Except ProfileError PowerProfile :=
  match (root.get "SPPowerDataType").bind Value.asArray with
  | none => .error .noPowerSection
  | some items =>
    match items.find? isBattery with
    | none => .ok .noBattery
    | some battery =>
      let field (key : String) := (battery.get "sppower_battery_health_info").bind (Value.get key)
      let reading : BatteryConditionReading :=
        { maxCapacityPerMille :=
            ((field "sppower_battery_health_maximum_capacity").bind Value.asStr).bind
              (percentToPerMille f64)
          condition :=
            (((field "sppower_battery_health").bind Value.asStr).map conditionFromText).getD
              .unknown
          cycleCount :=
            ((field "sppower_battery_cycle_count").bind Value.asF64).bind f64.whole }
      if reading.maxCapacityPerMille = none ∧ reading.condition = .unknown ∧
          reading.cycleCount = none then .error .noUsableFields
      else .ok (.battery reading)

def parsePowerProfile : Except Panic (Except ProfileError PowerProfile) :=
  if input.length > maxProfilerBytes then .ok (.error .tooLarge)
  else
    match parse input f64 with
    | .error (.panic p, _) => .error p
    | .error (.refused, _) => .ok (.error .malformed)
    | .ok (root, _) => .ok (readProfile f64 root)

end CydMonitor.Battery
