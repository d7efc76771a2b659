import CydMonitor.Lib.Loop
import CydMonitor.Lib.Text
import Mathlib.Algebra.GroupWithZero.Nat
import Mathlib.Data.List.Basic

/-!
# JSON values and their reader (`host/cli/src/hooks/json.rs`)

Text is a list of characters. The reader's position is the text that is left.
-/

namespace CydMonitor.Hooks

open Text (fromU32)

def maxBytes : ℕ := 2 ^ 20
def maxDepth : ℕ := 32

/-- The bytes of a text. -/
def byteLength (text : List Char) : ℕ := (text.map Char.utf8Size).sum

/-- Numbers keep their text and objects the order of their keys. -/
inductive Json where
  | null
  | bool (b : Bool)
  | num (text : List Char)
  | str (text : List Char)
  | arr (items : List Json)
  | obj (fields : List (List Char × Json))

namespace Json

mutual

def decEq : (v w : Json) → Decidable (v = w)
  | .null, .null => isTrue rfl
  | .bool a, .bool b => decidable_of_iff (a = b) (by simp)
  | .num a, .num b => decidable_of_iff (a = b) (by simp)
  | .str a, .str b => decidable_of_iff (a = b) (by simp)
  | .arr a, .arr b => @decidable_of_iff _ (a = b) (by simp) (decEqItems a b)
  | .obj a, .obj b => @decidable_of_iff _ (a = b) (by simp) (decEqFields a b)
  | .null, .bool _ | .null, .num _ | .null, .str _ | .null, .arr _ | .null, .obj _
  | .bool _, .null | .bool _, .num _ | .bool _, .str _ | .bool _, .arr _ | .bool _, .obj _
  | .num _, .null | .num _, .bool _ | .num _, .str _ | .num _, .arr _ | .num _, .obj _
  | .str _, .null | .str _, .bool _ | .str _, .num _ | .str _, .arr _ | .str _, .obj _
  | .arr _, .null | .arr _, .bool _ | .arr _, .num _ | .arr _, .str _ | .arr _, .obj _
  | .obj _, .null | .obj _, .bool _ | .obj _, .num _ | .obj _, .str _ | .obj _, .arr _ =>
    isFalse nofun

def decEqItems : (a b : List Json) → Decidable (a = b)
  | [], [] => isTrue rfl
  | [], _ :: _ => isFalse nofun
  | _ :: _, [] => isFalse nofun
  | v :: a, w :: b =>
    match decEq v w, decEqItems a b with
    | isTrue hv, isTrue ha => isTrue (by rw [hv, ha])
    | isFalse hv, _ => isFalse fun h => hv (List.cons.inj h).1
    | _, isFalse ha => isFalse fun h => ha (List.cons.inj h).2

def decEqFields : (a b : List (List Char × Json)) → Decidable (a = b)
  | [], [] => isTrue rfl
  | [], _ :: _ => isFalse nofun
  | _ :: _, [] => isFalse nofun
  | (k, v) :: a, (l, w) :: b =>
    if hk : k = l then
      match decEq v w, decEqFields a b with
      | isTrue hv, isTrue ha => isTrue (by rw [hk, hv, ha])
      | isFalse hv, _ => isFalse fun h => hv (Prod.mk.inj (List.cons.inj h).1).2
      | _, isFalse ha => isFalse fun h => ha (List.cons.inj h).2
    else isFalse fun h => hk (Prod.mk.inj (List.cons.inj h).1).1

end

instance : DecidableEq Json := decEq

def get (key : List Char) : Json → Option Json
  | .obj fields => (fields.find? (·.1 == key)).map (·.2)
  | _ => none

def asStr : Json → Option (List Char)
  | .str text => some text
  | _ => none

/-- Replaces the value of a key in place, or adds the key last. -/
def setField (key : List Char) (v : Json) : List (List Char × Json) → List (List Char × Json)
  | [] => [(key, v)]
  | f :: fields => if f.1 = key then (key, v) :: fields else f :: setField key v fields

def set (key : List Char) (v : Json) : Json → Json
  | .obj fields => .obj (setField key v fields)
  | w => w

/-- The object without the key, and whether it had it. -/
def remove (key : List Char) : Json → Json × Bool
  | .obj fields =>
    let kept := fields.filter (·.1 != key)
    (.obj kept, kept.length != fields.length)
  | v => (v, false)

def isEmptyObject : Json → Bool
  | .obj fields => fields.isEmpty
  | _ => false

end Json

/-- What the reader refuses. -/
inductive Complaint where
  | text (what : String)
  | duplicateKey (key : List Char)
  deriving DecidableEq, Repr, Inhabited

inductive JsonError where
  | tooLarge (maxBytes : ℕ)
  | refused (what : Complaint) (atByte : ℕ)
  deriving DecidableEq, Repr

/-- A complaint and the text that was left. -/
abbrev Fail := Complaint × List Char

def fail {α : Type} (rest : List Char) (what : String) : Except Fail α := .error (.text what, rest)

def isWs (c : Char) : Bool := c = ' ' || c = '\t' || c = '\n' || c = '\r'

def skipWs (rest : List Char) : List Char := rest.dropWhile isWs

def eat (literal : String) (rest : List Char) : Option (List Char) :=
  if literal.toList <+: rest then some (rest.drop literal.length) else none

def hexVal (c : Char) : Option ℕ :=
  if c.isDigit then some (c.toNat - '0'.toNat)
  else if 'a' ≤ c ∧ c ≤ 'f' then some (c.toNat - 'a'.toNat + 10)
  else if 'A' ≤ c ∧ c ≤ 'F' then some (c.toNat - 'A'.toNat + 10)
  else none

def hex4 : List Char → Except Fail (ℕ × List Char)
  | a :: b :: c :: d :: rest =>
    match hexVal a, hexVal b, hexVal c, hexVal d with
    | some a, some b, some c, some d => .ok (((a * 16 + b) * 16 + c) * 16 + d, rest)
    | _, _, _, _ => fail (a :: b :: c :: d :: rest) "bad \\u escape"
  | rest => fail rest "bad \\u escape"

def decode (code : ℕ) (rest : List Char) : Except Fail (Char × List Char) :=
  match fromU32 code with
  | some ch => .ok (ch, rest)
  | none => fail rest "lone surrogate"

/-- After `\u`: a character, or a high and a low surrogate. -/
def unicode (rest : List Char) : Except Fail (Char × List Char) := do
  let (first, rest) ← hex4 rest
  if 0xD800 ≤ first ∧ first < 0xDC00 then
    match eat "\\u" rest with
    | none => fail rest "lone surrogate"
    | some rest => do
      let (second, rest) ← hex4 rest
      if 0xDC00 ≤ second ∧ second < 0xE000 then
        decode (0x10000 + (first - 0xD800) * 2 ^ 10 + (second - 0xDC00)) rest
      else fail rest "lone surrogate"
  else decode first rest

def escapes : List (Char × Char) :=
  [('"', '"'), ('\\', '\\'), ('/', '/'), ('b', '\x08'), ('f', '\x0c'), ('n', '\n'), ('r', '\r'),
    ('t', '\t')]

/-- After a backslash. -/
def escape : List Char → Except Fail (Char × List Char)
  | [] => fail [] "unterminated string"
  | esc :: rest =>
    if esc = 'u' then unicode rest
    else
      match escapes.lookup esc with
      | some ch => .ok (ch, rest)
      | none => fail (esc :: rest) "bad escape"

/-- One round of a string: what was read, and the rest. -/
def stringRound :
    List Char × List Char → Except Fail ((List Char × List Char) ⊕ (List Char × List Char))
  | (_, []) => fail [] "unterminated string"
  | (out, c :: rest) =>
    if c = '"' then .ok (.inr (out, rest))
    else if c = '\\' then (escape rest).map fun r => .inl (out ++ [r.1], r.2)
    else if c.toNat < 0x20 then fail (c :: rest) "control character in string"
    else .ok (.inl (out ++ [c], rest))

/-- A string, from its opening quote. -/
def string (rest : List Char) : Except Fail (List Char × List Char) :=
  Loop.loop stringRound (·.2.length) ([], rest.tail)

/-- Digits, at least one. -/
def digits1 (rest : List Char) : Except Fail (List Char) :=
  if (rest.takeWhile Char.isDigit).isEmpty then fail rest "bad number"
  else .ok (rest.dropWhile Char.isDigit)

def integer : List Char → Except Fail (List Char)
  | [] => fail [] "bad number"
  | c :: rest =>
    if c = '0' then .ok rest
    else if c.isDigit then .ok (rest.dropWhile Char.isDigit)
    else fail (c :: rest) "bad number"

def fraction : List Char → Except Fail (List Char)
  | [] => .ok []
  | c :: rest => if c = '.' then digits1 rest else .ok (c :: rest)

def isSign (c : Char) : Bool := c = '+' || c = '-'

def exponent : List Char → Except Fail (List Char)
  | [] => .ok []
  | c :: rest =>
    if c = 'e' ∨ c = 'E' then
      digits1 (if rest.head?.any isSign then rest.tail else rest)
    else .ok (c :: rest)

/-- The number is its own text. -/
def number (start : List Char) : Except Fail (Json × List Char) := do
  let rest ← integer (if start.head? = some '-' then start.tail else start)
  let rest ← fraction rest
  let rest ← exponent rest
  return (.num (start.take (start.length - rest.length)), rest)

def badDelimiter {α : Type} (close : String) (rest : List Char) : Except Fail α :=
  if rest.head? = some '/' then fail rest "comments are not allowed"
  else fail rest ("expected ',' or " ++ close)

def objectRound (value : List Char → Except Fail (Json × List Char))
    (s : List (List Char × Json) × List Char) :
    Except Fail ((List (List Char × Json) × List Char) ⊕ (Json × List Char)) := do
  let (fields, rest) := s
  let rest := skipWs rest
  if rest.head? ≠ some '"' then
    if rest.head? = some '/' then fail rest "comments are not allowed"
    else fail rest "expected a string key"
  else
    let (key, rest) ← string rest
    if key ∈ fields.map Prod.fst then .error (.duplicateKey key, rest)
    else
      let rest := skipWs rest
      if rest.head? ≠ some ':' then fail rest "expected ':'"
      else
        let (v, rest) ← value (skipWs rest.tail)
        let fields := fields ++ [(key, v)]
        let rest := skipWs rest
        if rest.head? = some ',' then .ok (.inl (fields, rest.tail))
        else if rest.head? = some '\x7d' then .ok (.inr (.obj fields, rest.tail))
        else badDelimiter "'\x7d'" rest

/-- An object, from its opening brace. -/
def object (value : List Char → Except Fail (Json × List Char)) (rest : List Char) :
    Except Fail (Json × List Char) :=
  let rest := skipWs rest.tail
  if rest.head? = some '\x7d' then .ok (.obj [], rest.tail)
  else Loop.loop (objectRound value) (·.2.length) ([], rest)

def arrayRound (value : List Char → Except Fail (Json × List Char)) (s : List Json × List Char) :
    Except Fail ((List Json × List Char) ⊕ (Json × List Char)) := do
  let (items, rest) := s
  let (item, rest) ← value (skipWs rest)
  let items := items ++ [item]
  let rest := skipWs rest
  if rest.head? = some ',' then .ok (.inl (items, rest.tail))
  else if rest.head? = some ']' then .ok (.inr (.arr items, rest.tail))
  else badDelimiter "']'" rest

/-- An array, from its opening bracket. -/
def array (value : List Char → Except Fail (Json × List Char)) (rest : List Char) :
    Except Fail (Json × List Char) :=
  let rest := skipWs rest.tail
  if rest.head? = some ']' then .ok (.arr [], rest.tail)
  else Loop.loop (arrayRound value) (·.2.length) ([], rest)

/-- A value; `room`: how many levels are left. -/
def value : (room : ℕ) → List Char → Except Fail (Json × List Char)
  | 0, rest => fail rest "nesting too deep"
  | _ + 1, [] => fail [] "unexpected end"
  | room + 1, c :: rest =>
    if c = '\x7b' then object (value room) (c :: rest)
    else if c = '[' then array (value room) (c :: rest)
    else if c = '"' then (string (c :: rest)).map fun r => (.str r.1, r.2)
    else if let some rest := eat "true" (c :: rest) then .ok (.bool true, rest)
    else if let some rest := eat "false" (c :: rest) then .ok (.bool false, rest)
    else if let some rest := eat "null" (c :: rest) then .ok (.null, rest)
    else if c = '-' ∨ c.isDigit then number (c :: rest)
    else if c = '/' then fail (c :: rest) "comments are not allowed"
    else fail (c :: rest) "unexpected character"

def document (text : List Char) : Except Fail Json := do
  let (v, rest) ← value maxDepth (skipWs text)
  let rest := skipWs rest
  if rest = [] then .ok v else fail rest "unexpected data after the value"

def parseLimited (text : List Char) (maxBytes : ℕ) : Except JsonError Json :=
  if byteLength text > maxBytes then .error (.tooLarge maxBytes)
  else (document text).mapError fun e => .refused e.1 (byteLength text - byteLength e.2)

/-- Reads one document. -/
def parse (text : List Char) : Except JsonError Json := parseLimited text maxBytes

example : parse "\x7b \"a\" : [ 1.5e-3 , \"\\ud83d\\ude00\\n\" ]\x7d\n".toList =
    .ok (.obj [("a".toList, .arr [.num "1.5e-3".toList, .str ['😀', '\n']])]) := by
  decide +kernel

end CydMonitor.Hooks
