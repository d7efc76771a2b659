import CydMonitor.Wifi.FlatJson
import Mathlib.Data.List.DropRight

/-!
# Flat objects as they are spelled

A line laid out token by token, spaces included, and the rules that its parts have to keep.
-/

namespace CydMonitor.Wifi

open Text (lit byte isDigit)

def spaces (n : ℕ) : List UInt8 := List.replicate n (byte ' ')

/-- A value as it is spelled. -/
inductive Token where
  | str (s : List UInt8)
  | int (negative : Bool) (digits : List UInt8)
  | bool (b : Bool)
  | null
  deriving DecidableEq

def Token.text : Token → List UInt8
  | .str s => byte '"' :: s ++ [byte '"']
  | .int negative digits => (if negative then [byte '-'] else []) ++ digits
  | .bool true => lit "true"
  | .bool false => lit "false"
  | .null => lit "null"

def Token.value : Token → Value
  | .str s => .str s
  | .int negative digits => .int (if negative then -(ofDigits digits : Int) else ofDigits digits)
  | .bool b => .bool b
  | .null => .null

/-- No escapes and no control characters. -/
def Raw (s : List UInt8) : Prop := ∀ b ∈ s, b ≠ byte '"' ∧ b ≠ byte '\\' ∧ ¬ b < 0x20

/-- At least one digit, at most 15, no leading zeros. -/
structure Canonical (digits : List UInt8) : Prop where
  nonempty : digits ≠ []
  digit : ∀ d ∈ digits, isDigit d = true
  short : digits.length ≤ 15
  leading : 1 < digits.length → digits.head? ≠ some (byte '0')

/-- `max`: the bytes a string may have. -/
def Token.Legal (max : ℕ) : Token → Prop
  | .str s => s.length ≤ max ∧ Raw s
  | .int _ digits => Canonical digits
  | .bool _ | .null => True

/-- A key and a value, and the spaces around each of them. -/
structure Member where
  lead : ℕ := 0
  key : List UInt8
  beforeColon : ℕ := 0
  afterColon : ℕ := 0
  token : Token
  trail : ℕ := 0

def Member.text (m : Member) : List UInt8 :=
  spaces m.lead ++ byte '"' :: (m.key ++ byte '"' :: (spaces m.beforeColon ++ byte ':' ::
    (spaces m.afterColon ++ (m.token.text ++ spaces m.trail))))

def Member.field (m : Member) : List UInt8 × Value := (m.key, m.token.value)

structure Member.Legal (keyMax stringMax : ℕ) (m : Member) : Prop where
  key : m.key.length ≤ keyMax
  raw : Raw m.key
  token : m.token.Legal stringMax

/-- The members between commas. -/
def joined : List Member → List UInt8
  | [] => []
  | [m] => m.text
  | m :: ms => m.text ++ byte ',' :: joined ms

structure Layout where
  lead : ℕ := 0
  inner : ℕ := 0
  members : List Member
  trail : ℕ := 0

namespace Layout

def text (l : Layout) : List UInt8 :=
  spaces l.lead ++ byte '\x7b' :: (spaces l.inner ++ (joined l.members ++ byte '\x7d' ::
    spaces l.trail))

def fields (l : Layout) : List (List UInt8 × Value) := l.members.map Member.field

structure Legal (keyMax stringMax : ℕ) (l : Layout) : Prop where
  members : ∀ m ∈ l.members, m.Legal keyMax stringMax
  count : l.members.length ≤ kMaxFields
  keys : (l.members.map (·.key)).Nodup

end Layout

/-- The integer spelled `-0`. -/
def Member.MinusZero (m : Member) : Prop := m.token = .int true [byte '0']

instance (m : Member) : Decidable m.MinusZero := inferInstanceAs (Decidable (_ = _))

/-- A line that is one flat object with these fields. -/
def FlatObject (line : List UInt8) (fields : List (List UInt8 × Value)) : Prop :=
  line.length ≤ kMaxLineBytes ∧ fromUtf8 line = true ∧
    ∃ l : Layout, l.text = line ∧ l.fields = fields ∧ l.Legal kMaxKeyBytes kMaxStringBytes ∧
      ∀ m ∈ l.members, ¬m.MinusZero

/-- A key or a string that is one byte too long, or `-0`. -/
def Member.Excess (m : Member) : Prop :=
  m.key.length = kMaxKeyBytes + 1 ∨ (∃ s, m.token = .str s ∧ s.length = kMaxStringBytes + 1) ∨
    m.MinusZero

/-- A line that is a flat object but for such members. -/
def Exceeds (line : List UInt8) : Prop :=
  line.length ≤ kMaxLineBytes ∧ fromUtf8 line = true ∧
    ∃ l : Layout, l.text = line ∧ l.Legal (kMaxKeyBytes + 1) (kMaxStringBytes + 1) ∧
      ∃ m ∈ l.members, m.Excess

theorem skipWs_spaces {b : UInt8} (h : b ≠ byte ' ') (n : ℕ) (rest : List UInt8) :
    skipWs (spaces n ++ b :: rest) = b :: rest := by
  rw [skipWs, spaces, List.dropWhile_append_of_pos (by simp)]
  exact skipWs_cons h rest

theorem exists_spaces (text : List UInt8) : ∃ n, text = spaces n ++ skipWs text := by
  refine ⟨(text.takeWhile (· == byte ' ')).length, ?_⟩
  have hall : text.takeWhile (· == byte ' ') =
      spaces (text.takeWhile (· == byte ' ')).length := by
    refine List.eq_replicate_of_mem fun b hb => ?_
    simpa using List.mem_takeWhile_imp hb
  rw [← hall]
  exact (List.takeWhile_append_dropWhile ..).symm

theorem skipWs_skipWs (text : List UInt8) : skipWs (skipWs text) = skipWs text :=
  List.dropWhile_idempotent ..

theorem skipWs_all (n : ℕ) : skipWs (spaces n) = [] := by
  simp [skipWs, spaces]

private theorem stringBody_sound {max : ℕ} {offset : ℕ} {text s rest : List UInt8}
    (h : stringBody max offset text = some (s, rest)) (hoffset : offset ≤ max + 1) :
    text = s ++ byte '"' :: rest ∧ offset + s.length ≤ max + 1 ∧ Raw s := by
  induction text generalizing offset s with
  | nil => cases h
  | cons b text ih =>
    rw [stringBody] at h
    by_cases hquote : b = byte '"'
    · rw [if_pos hquote] at h
      cases h
      exact ⟨by rw [hquote]; rfl, hoffset, fun _ hb => absurd hb List.not_mem_nil⟩
    · rw [if_neg hquote] at h
      by_cases hbad : b = byte '\\' ∨ b < 0x20 ∨ offset > max
      · rw [if_pos hbad] at h
        cases h
      · rw [if_neg hbad] at h
        obtain ⟨hescape, hcontrol, hmax⟩ : b ≠ byte '\\' ∧ ¬ b < 0x20 ∧ ¬ offset > max := by
          simpa [not_or] using hbad
        obtain ⟨⟨s', rest'⟩, hbody, heq⟩ := Option.map_eq_some_iff.mp h
        cases heq
        obtain ⟨htext, hlength, hraw⟩ := ih hbody (by omega)
        refine ⟨by rw [htext]; rfl, ?_, fun c hc => ?_⟩
        · simp only [List.length_cons]
          omega
        · cases List.mem_cons.mp hc with
          | inl heq => exact heq ▸ ⟨hquote, hescape, hcontrol⟩
          | inr htail => exact hraw c htail

theorem string_sound {max : ℕ} {text s rest : List UInt8} (h : string max text = some (s, rest)) :
    text = byte '"' :: (s ++ byte '"' :: rest) ∧ s.length ≤ max + 1 ∧ Raw s := by
  cases text with
  | nil => cases h
  | cons b text =>
    rw [string] at h
    by_cases hquote : b = byte '"'
    · rw [if_pos hquote] at h
      obtain ⟨htext, hlength, hraw⟩ := stringBody_sound h (Nat.zero_le _)
      exact ⟨by rw [hquote, htext], by omega, hraw⟩
    · rw [if_neg hquote] at h
      cases h

private theorem digits_no_minus {ds : List UInt8} (h : ∀ d ∈ ds, isDigit d = true) :
    ds.dropWhile (· == byte '-') = ds := by
  cases ds with
  | nil => rfl
  | cons d ds =>
    refine List.dropWhile_cons_of_neg ?_
    have hd := h d List.mem_cons_self
    intro heq
    rw [beq_iff_eq.mp heq] at hd
    exact absurd hd (by decide)

/-- The digits that a number starting with this byte is made of. -/
private theorem magnitude_eq {b : UInt8} (hb : isDigit b = true ∨ b = byte '-')
    {ds : List UInt8} (hds : ∀ d ∈ ds, isDigit d = true) :
    ∃ negative digits, (b :: ds).dropWhile (· == byte '-') = digits ∧
      b :: ds = (Token.int negative digits).text ∧ (∀ d ∈ digits, isDigit d = true) ∧
        (negative = true ↔ b = byte '-') := by
  by_cases hminus : b = byte '-'
  · refine ⟨true, ds, ?_, by rw [hminus]; rfl, hds, by simp [hminus]⟩
    rw [List.dropWhile_cons_of_pos (by simp [hminus]), digits_no_minus hds]
  · have hall : ∀ d ∈ b :: ds, isDigit d = true := by
      intro d hd
      cases List.mem_cons.mp hd with
      | inl heq => exact heq ▸ hb.resolve_right hminus
      | inr htail => exact hds d htail
    exact ⟨false, b :: ds, digits_no_minus hall, rfl, hall, by simp [hminus]⟩

theorem number_sound {b : UInt8} (hb : isDigit b = true ∨ b = byte '-') {text : List UInt8}
    {n : Int} {rest : List UInt8} (h : number b text = some (n, rest)) :
    ∃ negative digits, b :: text = (Token.int negative digits).text ++ rest ∧
      Canonical digits ∧ (Token.int negative digits).value = .int n := by
  have hds : ∀ d ∈ text.takeWhile isDigit, isDigit d = true := fun d hd =>
    List.mem_takeWhile_imp hd
  obtain ⟨negative, digits, hmagnitude, htext, hdigits, hnegative⟩ := magnitude_eq hb hds
  rw [number, hmagnitude] at h
  by_cases hbad : digits = [] ∨ digits.length > 15 ∨
      (digits.length > 1 ∧ digits.head? = some (byte '0'))
  · rw [if_pos hbad] at h
    cases h
  · rw [if_neg hbad] at h
    obtain ⟨hsome, hshort, hleading⟩ : digits ≠ [] ∧ ¬digits.length > 15 ∧
        ¬(digits.length > 1 ∧ digits.head? = some (byte '0')) := by
      simpa only [not_or] using hbad
    cases h
    refine ⟨negative, digits, ?_, ⟨hsome, hdigits, by omega, fun hlong hhead =>
      hleading ⟨hlong, hhead⟩⟩, ?_⟩
    · rw [← htext, List.cons_append, List.takeWhile_append_dropWhile]
    · simp only [Token.value, hnegative]

theorem value_sound {text rest : List UInt8} {v : Value} (h : value text = some (v, rest)) :
    ∃ token : Token, text = token.text ++ rest ∧ token.Legal (kMaxStringBytes + 1) ∧
      token.value = v := by
  cases text with
  | nil => cases h
  | cons b text =>
    have hword {w : List UInt8} (hw : w <+: b :: text) :
        b :: text = w ++ (b :: text).drop w.length := List.prefix_iff_eq_append.mp hw |>.symm
    rw [value] at h
    split_ifs at h with hquote htrue hfalse hnull hnumber
    · obtain ⟨⟨s, rest'⟩, hstring, heq⟩ := Option.map_eq_some_iff.mp h
      cases heq
      obtain ⟨htext, hlength, hraw⟩ := string_sound hstring
      exact ⟨.str s, by rw [htext]; simp [Token.text], ⟨hlength, hraw⟩, rfl⟩
    · cases h
      exact ⟨.bool true, hword htrue, trivial, rfl⟩
    · cases h
      exact ⟨.bool false, hword hfalse, trivial, rfl⟩
    · cases h
      exact ⟨.null, hword hnull, trivial, rfl⟩
    · obtain ⟨⟨n, rest'⟩, hread, heq⟩ := Option.map_eq_some_iff.mp h
      cases heq
      obtain ⟨negative, digits, htext, hcanonical, hvalue⟩ := number_sound hnumber hread
      exact ⟨.int negative digits, htext, hcanonical, hvalue⟩

end CydMonitor.Wifi
