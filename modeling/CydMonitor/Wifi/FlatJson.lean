import CydMonitor.Lib.Text
import Mathlib.Algebra.Group.Int.Defs
import Mathlib.Algebra.GroupWithZero.Nat
import Mathlib.Data.List.Basic

/-!
# Flat JSON lines (`host/metrics/src/flat_json.rs`)

Text is its UTF-8 bytes. A line that is rendered without spaces reads back as its fields.
-/

namespace CydMonitor.Wifi

open Text (utf8 lit byte isDigit decimal digit_of_mem_decimal utf8_decimal toNat_byte
  head_decimal length_decimal_le)

def kMaxLineBytes : ℕ := 512
def kMaxFields : ℕ := 16
def kMaxKeyBytes : ℕ := 24
def kMaxStringBytes : ℕ := 128

def fromUtf8 (line : List UInt8) : Bool := line.toByteArray.validateUTF8

inductive FlatJsonError where
  | tooLong | notJson
  deriving DecidableEq, Repr

inductive Value where
  | str (s : List UInt8)
  | int (n : Int)
  | bool (b : Bool)
  | null
  deriving DecidableEq, Repr

def skipWs (text : List UInt8) : List UInt8 := text.dropWhile (· == byte ' ')

/-- The rest of a string after its opening quote: no escapes and no control characters. -/
def stringBody (max : ℕ) : (offset : ℕ) → List UInt8 → Option (List UInt8 × List UInt8)
  | _, [] => none
  | offset, b :: rest =>
    if b = byte '"' then some ([], rest)
    else if b = byte '\\' ∨ b < 0x20 ∨ offset > max then none
    else (stringBody max (offset + 1) rest).map fun r => (b :: r.1, r.2)

def string (max : ℕ) : List UInt8 → Option (List UInt8 × List UInt8)
  | [] => none
  | b :: rest => if b = byte '"' then stringBody max 0 rest else none

def ofDigits (digits : List UInt8) : ℕ :=
  digits.foldl (fun n d => 10 * n + (d.toNat - (byte '0').toNat)) 0

/-- Bounded, canonical integers only: no leading zeros. -/
def number (first : UInt8) (rest : List UInt8) : Option (Int × List UInt8) :=
  let magnitude := (first :: rest.takeWhile isDigit).dropWhile (· == byte '-')
  if magnitude = [] ∨ magnitude.length > 15 ∨
      (magnitude.length > 1 ∧ magnitude.head? = some (byte '0')) then none
  else
    some (if first = byte '-' then -(ofDigits magnitude : Int) else ofDigits magnitude,
      rest.dropWhile isDigit)

def value (text : List UInt8) : Option (Value × List UInt8) :=
  match text with
  | [] => none
  | b :: rest =>
    if b = byte '"' then (string kMaxStringBytes text).map fun r => (.str r.1, r.2)
    else if lit "true" <+: text then some (.bool true, text.drop 4)
    else if lit "false" <+: text then some (.bool false, text.drop 5)
    else if lit "null" <+: text then some (.null, text.drop 4)
    else if isDigit b ∨ b = byte '-' then (number b rest).map fun r => (.int r.1, r.2)
    else none

/-- `key: value`, between spaces. -/
def member (text : List UInt8) : Option ((List UInt8 × Value) × List UInt8) := do
  let (key, text) ← string kMaxKeyBytes (skipWs text)
  match skipWs text with
  | [] => none
  | b :: text =>
    if b ≠ byte ':' then none
    else do
      let (v, text) ← value (skipWs text)
      pure ((key, v), skipWs text)

/-- The members up to the closing brace; `room`: how many more there may be. -/
def members : (room : ℕ) → List (List UInt8 × Value) → List UInt8 →
    Option (List (List UInt8 × Value) × List UInt8)
  | 0, _, _ => none
  | room + 1, fields, text => do
    let (field, text) ← member text
    if field.1 ∈ fields.map Prod.fst then none
    else
      match text with
      | [] => none
      | b :: text =>
        if b = byte ',' then members room (fields ++ [field]) text
        else if b = byte '}' then some (fields ++ [field], text)
        else none

def object (text : List UInt8) : Option (List (List UInt8 × Value) × List UInt8) :=
  match skipWs text with
  | [] => none
  | b :: text =>
    if b ≠ byte '{' then none
    else
      match skipWs text with
      | [] => none
      | c :: rest => if c = byte '}' then some ([], rest) else members kMaxFields [] (c :: rest)

def parseFlatObject (line : List UInt8) : Except FlatJsonError (List (List UInt8 × Value)) :=
  if line.length > kMaxLineBytes then .error .tooLong
  else if !fromUtf8 line then .error .notJson
  else
    match object line with
    | none => .error .notJson
    | some (fields, rest) => if skipWs rest = [] then .ok fields else .error .notJson

/-- What a value reads like, without spaces. -/
def Value.text : Value → List UInt8
  | .str s => byte '"' :: s ++ [byte '"']
  | .int n => utf8 (decimal n.toNat)
  | .bool true => lit "true"
  | .bool false => lit "false"
  | .null => lit "null"

def memberText (f : List UInt8 × Value) : List UInt8 :=
  byte '"' :: f.1 ++ [byte '"', byte ':'] ++ f.2.text

/-- The members and the closing brace. -/
def membersText : List (List UInt8 × Value) → List UInt8
  | [] => [byte '}']
  | [f] => memberText f ++ [byte '}']
  | f :: fs => memberText f ++ byte ',' :: membersText fs

def render (fields : List (List UInt8 × Value)) : List UInt8 :=
  byte '{' :: membersText fields

/-- Text is valid UTF-8. -/
theorem fromUtf8_utf8 (text : List Char) : fromUtf8 (utf8 text) = true := by
  rw [fromUtf8, ByteArray.validateUTF8_eq_true_iff]
  exact ByteArray.isValidUTF8_utf8Encode

example : object (lit "\x7b\"v\":1, \"type\" :\"hello\"\x7d") =
    some ([(lit "v", .int 1), (lit "type", .str (lit "hello"))], []) := by
  decide +kernel

/-- Text that a string may hold. -/
def Plain (max : ℕ) (s : List UInt8) : Prop :=
  s.length ≤ max + 1 ∧ ∀ b ∈ s, b ≠ byte '"' ∧ b ≠ byte '\\' ∧ ¬ b < 0x20

/-- A value that its text gives back. -/
def Value.Fits : Value → Prop
  | .str s => Plain kMaxStringBytes s
  | .int n => 0 ≤ n ∧ n < 10 ^ 15
  | .bool _ | .null => True

theorem skipWs_cons {b : UInt8} (h : b ≠ byte ' ') (rest : List UInt8) :
    skipWs (b :: rest) = b :: rest := by
  rw [skipWs, List.dropWhile_cons_of_neg]
  simpa using h

private theorem stringBody_plain {max : ℕ} {s : List UInt8} {offset : ℕ}
    (hlength : offset + s.length ≤ max + 1)
    (hs : ∀ b ∈ s, b ≠ byte '"' ∧ b ≠ byte '\\' ∧ ¬ b < 0x20) (rest : List UInt8) :
    stringBody max offset (s ++ byte '"' :: rest) = some (s, rest) := by
  induction s generalizing offset with
  | nil => rw [List.nil_append, stringBody, if_pos rfl]
  | cons b s ih =>
    obtain ⟨hquote, hescape, hcontrol⟩ := hs b List.mem_cons_self
    have hoffset : ¬ offset > max := by
      rw [List.length_cons] at hlength
      omega
    rw [List.cons_append, stringBody, if_neg hquote, if_neg (by simp [hescape, hcontrol, hoffset]),
      ih (by rw [List.length_cons] at hlength; omega) fun c hc => hs c (List.mem_cons_of_mem b hc)]
    rfl

theorem string_plain {max : ℕ} {s : List UInt8} (h : Plain max s) (rest : List UInt8) :
    string max (byte '"' :: (s ++ byte '"' :: rest)) = some (s, rest) := by
  rw [string, if_pos rfl]
  exact stringBody_plain (by simpa using h.1) h.2 rest

private theorem isDigit_byte {n : ℕ} {c : Char} (h : c ∈ decimal n) :
    isDigit (byte c) = true ∧ byte c ≠ byte '-' := by
  obtain ⟨hlow, hhigh⟩ := digit_of_mem_decimal h
  have hnat : (byte c).toNat = c.toNat := toNat_byte (by omega)
  have hzero : (byte '0').toNat = 48 := by decide
  have hnine : (byte '9').toNat = 57 := by decide
  refine ⟨?_, fun heq => ?_⟩
  · rw [isDigit, Bool.and_eq_true, decide_eq_true_eq, decide_eq_true_eq, UInt8.le_iff_toNat_le,
      UInt8.le_iff_toNat_le, hnat, hzero, hnine]
    exact ⟨hlow, hhigh⟩
  · have hminus : (byte '-').toNat = 45 := by decide
    rw [heq, hminus] at hnat
    omega

private theorem utf8_decimal_cons (n : ℕ) :
    ∃ d ds, utf8 (decimal n) = d :: ds ∧ isDigit d = true := by
  have hne : utf8 (decimal n) ≠ [] := by
    rw [utf8_decimal]
    simp [decimal]
  obtain ⟨d, ds, hd⟩ := List.exists_cons_of_ne_nil hne
  have hmem : d ∈ utf8 (decimal n) := by simp [hd]
  rw [utf8_decimal] at hmem
  obtain ⟨c, hc, rfl⟩ := List.mem_map.mp hmem
  exact ⟨_, ds, hd, (isDigit_byte hc).1⟩

private theorem foldl_digits (text : List Char) (h : ∀ c ∈ text, 48 ≤ c.toNat ∧ c.toNat ≤ 57)
    (n : ℕ) : (text.map byte).foldl (fun n d => 10 * n + (d.toNat - (byte '0').toNat)) n =
      Nat.ofDigitChars 10 text n := by
  induction text generalizing n with
  | nil => rfl
  | cons c text ih =>
    have hc := h c List.mem_cons_self
    have hnat : (byte c).toNat - (byte '0').toNat = c.toNat - '0'.toNat := by
      rw [toNat_byte (by omega)]
      rfl
    rw [List.map_cons, List.foldl_cons, hnat, Nat.ofDigitChars_cons]
    exact ih (fun d hd => h d (List.mem_cons_of_mem c hd)) _

theorem ofDigits_decimal (n : ℕ) : ofDigits ((decimal n).map byte) = n := by
  rw [ofDigits, foldl_digits _ fun c hc => digit_of_mem_decimal hc]
  exact Nat.ofDigitChars_ten_toDigits

/-- The next byte is no digit. -/
def NoDigit (rest : List UInt8) : Prop := ∀ b ∈ rest.head?, isDigit b = false

theorem span_digits {ds rest : List UInt8} (hds : ∀ d ∈ ds, isDigit d = true)
    (hrest : NoDigit rest) : (ds ++ rest).takeWhile isDigit = ds ∧
      (ds ++ rest).dropWhile isDigit = rest := by
  have htail : rest.takeWhile isDigit = [] ∧ rest.dropWhile isDigit = rest := by
    cases rest with
    | nil => exact ⟨rfl, rfl⟩
    | cons b rest =>
      have hb := hrest b rfl
      exact ⟨List.takeWhile_cons_of_neg (by simp [hb]), List.dropWhile_cons_of_neg (by simp [hb])⟩
  rw [List.takeWhile_append_of_pos hds, List.dropWhile_append_of_pos hds, htail.1, htail.2]
  exact ⟨List.append_nil ds, rfl⟩

theorem number_decimal {n : ℕ} (hn : n < 10 ^ 15) {d : UInt8} {ds rest : List UInt8}
    (hd : utf8 (decimal n) = d :: ds) (hrest : NoDigit rest) :
    number d (ds ++ rest) = some ((n : Int), rest) := by
  rw [utf8_decimal] at hd
  have hdigits (b : UInt8) (hb : b ∈ d :: ds) : isDigit b = true ∧ b ≠ byte '-' := by
    rw [← hd] at hb
    obtain ⟨c, hc, rfl⟩ := List.mem_map.mp hb
    exact isDigit_byte hc
  obtain ⟨htake, hdrop⟩ := span_digits (fun b hb => (hdigits b (List.mem_cons_of_mem d hb)).1)
    hrest
  have hminus := (hdigits d List.mem_cons_self).2
  have hmagnitude : (d :: ds).dropWhile (· == byte '-') = d :: ds :=
    List.dropWhile_cons_of_neg (by simpa using hminus)
  have hlength : (d :: ds).length ≤ 15 := by
    rw [← hd, List.length_map]
    exact length_decimal_le hn
  have hzero : ¬ ((d :: ds).length > 1 ∧ (d :: ds).head? = some (byte '0')) := by
    rintro ⟨hlong, hhead⟩
    rw [← hd, List.head?_map] at hhead
    obtain ⟨c, hc, hbyte⟩ := Option.map_eq_some_iff.mp hhead
    have hdigit := digit_of_mem_decimal (List.mem_of_head? hc)
    have hnat : c.toNat = '0'.toNat := by
      rw [← toNat_byte (c := c) (by omega), hbyte]
      rfl
    obtain rfl : c = '0' := Char.ext (UInt32.toNat_inj.mp hnat)
    obtain rfl := head_decimal n hc
    rw [← hd] at hlong
    exact absurd hlong (by decide)
  have hcanonical : ¬ ((d :: ds) = [] ∨ (d :: ds).length > 15 ∨
      ((d :: ds).length > 1 ∧ (d :: ds).head? = some (byte '0'))) := by
    rintro (h | h | h)
    · cases h
    · omega
    · exact hzero h
  rw [number, htake, hdrop, hmagnitude, if_neg hcanonical, if_neg hminus, ← hd, ofDigits_decimal]

theorem prefix_head {a b : UInt8} {s t : List UInt8} (h : (a :: s) <+: (b :: t)) :
    a = b := by
  obtain ⟨u, hu⟩ := h
  exact (List.cons.inj hu).1

/-- The text of a value reads back. -/
theorem value_text {v : Value} (hv : v.Fits) {rest : List UInt8} (hrest : NoDigit rest) :
    value (v.text ++ rest) = some (v, rest) := by
  cases v with
  | str s =>
    have htext : (Value.str s).text ++ rest = byte '"' :: (s ++ byte '"' :: rest) := by
      simp [Value.text]
    rw [htext, value, if_pos rfl, string_plain hv]
    rfl
  | int n =>
    obtain ⟨hpos, hlt⟩ := hv
    obtain ⟨m, rfl⟩ := Int.eq_ofNat_of_zero_le hpos
    have hm : m < 10 ^ 15 := by exact_mod_cast hlt
    obtain ⟨d, ds, hd, hdigit⟩ := utf8_decimal_cons m
    have hother (b : UInt8) (hb : isDigit b = false) : ¬ b = d := by
      rintro rfl
      rw [hdigit] at hb
      cases hb
    have htext : (Value.int m).text ++ rest = d :: (ds ++ rest) := by
      simp [Value.text, hd]
    have hword {w : List UInt8} {b : UInt8} {bs : List UInt8} (hw : w = b :: bs)
        (hb : isDigit b = false) : ¬ w <+: d :: (ds ++ rest) := by
      rw [hw]
      exact fun h => hother b hb (prefix_head h)
    have htrue : ¬ lit "true" <+: d :: (ds ++ rest) := hword rfl (by decide)
    have hfalse : ¬ lit "false" <+: d :: (ds ++ rest) := hword rfl (by decide)
    have hnull : ¬ lit "null" <+: d :: (ds ++ rest) := hword rfl (by decide)
    rw [htext, value, if_neg fun h => hother (byte '"') (by decide) h.symm, if_neg htrue,
      if_neg hfalse, if_neg hnull, if_pos (.inl hdigit), number_decimal hm hd hrest]
    rfl
  | bool b =>
    cases b with
    | true =>
      have htrue : lit "true" <+: byte 't' :: (lit "rue" ++ rest) :=
        List.prefix_append (lit "true") rest
      show value (byte 't' :: (lit "rue" ++ rest)) = _
      rw [value, if_neg (by decide), if_pos htrue]
      rfl
    | false =>
      have htrue : ¬ lit "true" <+: byte 'f' :: (lit "alse" ++ rest) := fun h =>
        absurd (prefix_head (s := lit "rue") h) (by decide)
      have hfalse : lit "false" <+: byte 'f' :: (lit "alse" ++ rest) :=
        List.prefix_append (lit "false") rest
      show value (byte 'f' :: (lit "alse" ++ rest)) = _
      rw [value, if_neg (by decide), if_neg htrue, if_pos hfalse]
      rfl
  | null =>
    have htrue : ¬ lit "true" <+: byte 'n' :: (lit "ull" ++ rest) := fun h =>
      absurd (prefix_head (s := lit "rue") h) (by decide)
    have hfalse : ¬ lit "false" <+: byte 'n' :: (lit "ull" ++ rest) := fun h =>
      absurd (prefix_head (s := lit "alse") h) (by decide)
    have hnull : lit "null" <+: byte 'n' :: (lit "ull" ++ rest) :=
      List.prefix_append (lit "null") rest
    show value (byte 'n' :: (lit "ull" ++ rest)) = _
    rw [value, if_neg (by decide), if_neg htrue, if_neg hfalse, if_pos hnull]
    rfl

private theorem text_head {v : Value} (hv : v.Fits) (rest : List UInt8) :
    skipWs (v.text ++ rest) = v.text ++ rest := by
  cases v with
  | str s => exact skipWs_cons (by decide) _
  | int n =>
    obtain ⟨d, ds, hd⟩ := utf8_decimal_cons n.toNat
    have htext : (Value.int n).text ++ rest = d :: (ds ++ rest) := by
      simp [Value.text, hd.1]
    rw [htext]
    refine skipWs_cons (fun h => ?_) _
    subst h
    exact absurd hd.2 (by decide)
  | bool b =>
    cases b with
    | true => exact skipWs_cons (b := byte 't') (by decide) _
    | false => exact skipWs_cons (b := byte 'f') (by decide) _
  | null => exact skipWs_cons (b := byte 'n') (by decide) _

/-- A member whose text reads back. -/
structure FitsMember (f : List UInt8 × Value) : Prop where
  key : Plain kMaxKeyBytes f.1
  value : f.2.Fits

theorem member_text {f : List UInt8 × Value} (hf : FitsMember f) {b : UInt8}
    (hb : isDigit b = false ∧ b ≠ byte ' ') (rest : List UInt8) :
    member (memberText f ++ b :: rest) = some (f, b :: rest) := by
  have htext : memberText f ++ b :: rest =
      byte '"' :: (f.1 ++ byte '"' :: (byte ':' :: (f.2.text ++ b :: rest))) := by
    simp [memberText]
  have hrest : NoDigit (b :: rest) := fun c hc => by
    obtain rfl := Option.some.inj hc
    exact hb.1
  rw [htext, member, skipWs_cons (by decide), string_plain hf.key]
  show (match skipWs (byte ':' :: (f.2.text ++ b :: rest)) with
    | [] => none
    | b :: text =>
      if b ≠ byte ':' then none
      else do
        let (v, text) ← value (skipWs text)
        pure ((f.1, v), skipWs text)) = _
  rw [skipWs_cons (by decide)]
  simp only [ne_eq, not_true_eq_false, if_false]
  rw [text_head hf.value, value_text hf.value hrest]
  show some (f, skipWs (b :: rest)) = _
  rw [skipWs_cons hb.2]

/-- The members' text reads back after any members with other keys. -/
private theorem members_text {fields : List (List UInt8 × Value)} (hne : fields ≠ [])
    (hfields : ∀ f ∈ fields, FitsMember f) {seen : List (List UInt8 × Value)}
    (hkeys : ((seen ++ fields).map Prod.fst).Nodup) {room : ℕ} (hroom : fields.length ≤ room) :
    members room seen (membersText fields) = some (seen ++ fields, []) := by
  induction fields generalizing seen room with
  | nil => exact absurd rfl hne
  | cons f fs ih =>
    have hf := hfields f List.mem_cons_self
    obtain ⟨room, rfl⟩ : ∃ k, room = k + 1 := by
      rw [List.length_cons] at hroom
      exact ⟨room - 1, by omega⟩
    have hnew : f.1 ∉ seen.map Prod.fst := by
      rw [List.map_append, List.nodup_append] at hkeys
      intro hmem
      exact hkeys.2.2 _ hmem _ (by simp) rfl
    have happend : seen ++ f :: fs = seen ++ [f] ++ fs := by simp
    cases fs with
    | nil =>
      rw [membersText, members, member_text hf (by decide)]
      show (if f.1 ∈ seen.map Prod.fst then none else _) = _
      rw [if_neg hnew, if_neg (by decide), if_pos rfl]
    | cons g fs =>
      rw [membersText, members, member_text hf (by decide)]
      · show (if f.1 ∈ seen.map Prod.fst then none else _) = _
        rw [if_neg hnew, if_pos rfl, happend]
        exact ih (by simp) (fun h hh => hfields h (List.mem_cons_of_mem f hh))
          (by rwa [← happend]) (by simpa using hroom)
      · simp

/-- A rendered object reads back as its fields. -/
theorem parseFlatObject_render {fields : List (List UInt8 × Value)} (hne : fields ≠ [])
    (hfields : ∀ f ∈ fields, FitsMember f) (hkeys : (fields.map Prod.fst).Nodup)
    (hcount : fields.length ≤ kMaxFields) (hlength : (render fields).length ≤ kMaxLineBytes)
    (hutf8 : fromUtf8 (render fields) = true) :
    parseFlatObject (render fields) = .ok fields := by
  obtain ⟨b, rest, hb, hquote⟩ : ∃ b rest, membersText fields = b :: rest ∧ b = byte '"' := by
    match fields, hne with
    | [_], _ => exact ⟨_, _, rfl, rfl⟩
    | _ :: _ :: _, _ => exact ⟨_, _, rfl, rfl⟩
  have hmembers : object (render fields) = some (fields, []) := by
    rw [render, object, skipWs_cons (by decide)]
    simp only [ne_eq, not_true_eq_false, if_false]
    rw [hb, skipWs_cons (hquote ▸ by decide)]
    show (if b = byte '}' then _ else members kMaxFields [] (b :: rest)) = _
    rw [if_neg (hquote ▸ by decide), ← hb]
    exact @members_text fields hne hfields [] hkeys _ hcount
  rw [parseFlatObject, if_neg (by omega), hutf8, hmembers]
  rfl

end CydMonitor.Wifi
