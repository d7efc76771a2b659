import Mathlib.Algebra.GroupWithZero.Nat
import Mathlib.Data.List.Basic
import Mathlib.Data.List.DropRight

/-!
# Text operations

Texts are lists of characters, and `utf8` is the bytes of a text.
-/

namespace Text

instance lawfulBEq : LawfulBEq (List Char) := inferInstance

/-- The characters with the Unicode property `White_Space`. -/
def isWhiteSpace (c : Char) : Bool :=
  (9 ≤ c.toNat && c.toNat ≤ 13) || (0x2000 ≤ c.toNat && c.toNat ≤ 0x200a) ||
    [0x20, 0x85, 0xa0, 0x1680, 0x2028, 0x2029, 0x202f, 0x205f, 0x3000].contains c.toNat

/-- The text without the white space around it. -/
def trim (text : List Char) : List Char :=
  (text.dropWhile isWhiteSpace).rdropWhile isWhiteSpace

/-- The first of the words between white space. -/
def firstWord (text : List Char) : Option (List Char) :=
  let word := (text.dropWhile isWhiteSpace).takeWhile (!isWhiteSpace ·)
  if word.isEmpty then none else some word

def stripSuffix (c : Char) (text : List Char) : Option (List Char) :=
  if text.getLast? = some c then some text.dropLast else none

def utf8 (text : List Char) : List UInt8 := text.flatMap String.utf8EncodeChar

/-- The bytes of a literal. -/
def lit (s : String) : List UInt8 := utf8 s.toList

def byte (c : Char) : UInt8 := c.toUInt8

def isDigit (b : UInt8) : Bool := byte '0' ≤ b && b ≤ byte '9'

/-- The digits of a number. -/
def decimal (n : ℕ) : List Char := Nat.toDigits 10 n

def fromU32 (code : ℕ) : Option Char := if code.isValidChar then some (Char.ofNat code) else none

theorem utf8_append (a b : List Char) : utf8 (a ++ b) = utf8 a ++ utf8 b :=
  List.flatMap_append ..

/-- ASCII text is a byte a character. -/
theorem utf8_ascii {text : List Char} (h : ∀ c ∈ text, c.toNat < 128) :
    utf8 text = text.map byte := by
  induction text with
  | nil => rfl
  | cons c text ih =>
    have hc : c.utf8Size = 1 := by
      rw [Char.utf8Size_eq_one_iff]
      exact UInt32.le_iff_toNat_le.mpr (Nat.le_of_lt_succ (h c List.mem_cons_self))
    rw [utf8, List.flatMap_cons, String.utf8EncodeChar_eq_singleton hc, List.map_cons]
    exact congrArg _ (ih fun d hd => h d (List.mem_cons_of_mem c hd))

theorem digit_of_mem_decimal {n : ℕ} {c : Char} (h : c ∈ decimal n) :
    48 ≤ c.toNat ∧ c.toNat ≤ 57 := by
  have hdigit := Nat.isDigit_of_mem_toDigits (by decide) (by decide) h
  simp only [Char.isDigit, Bool.and_eq_true, decide_eq_true_eq] at hdigit
  exact ⟨UInt32.le_iff_toNat_le.mp hdigit.1, UInt32.le_iff_toNat_le.mp hdigit.2⟩

theorem utf8_decimal (n : ℕ) : utf8 (decimal n) = (decimal n).map byte :=
  utf8_ascii fun c hc => by
    have := (digit_of_mem_decimal hc).2
    omega

theorem toNat_byte {c : Char} (h : c.toNat < 128) : (byte c).toNat = c.toNat := by
  have hmod : (byte c).toNat = c.toNat % 2 ^ 8 := UInt32.toNat_toUInt8 c.val
  rw [hmod]
  exact Nat.mod_eq_of_lt (by omega)

/-- No leading zeros. -/
theorem head_decimal (n : ℕ) (h : (decimal n).head? = some '0') : n = 0 := by
  induction n using Nat.strongRecOn with
  | ind n ih =>
    rw [decimal, Nat.toDigits_eq_if (by decide)] at h
    split_ifs at h with hlt
    · simpa using h
    · have hne : (Nat.toDigits 10 (n / 10)) ≠ [] := Nat.toDigits_ne_nil
      rw [List.head?_append_of_ne_nil _ hne] at h
      have := ih (n / 10) (by omega) h
      omega

theorem length_decimal_le {n k : ℕ} (h : n < 10 ^ (k + 1)) : (decimal n).length ≤ k + 1 :=
  (Nat.length_toDigits_le_iff (by decide) (Nat.succ_pos k)).mpr h

theorem fromU32_eq_some {code : ℕ} {c : Char} : fromU32 code = some c ↔ c.toNat = code := by
  rw [fromU32]
  constructor
  · intro h
    split_ifs at h with hvalid
    cases h
    rw [Char.ofNat, dif_pos hvalid]
    rfl
  · intro h
    have hvalid : code.isValidChar := h ▸ c.valid
    rw [if_pos hvalid, ← h, Char.ofNat_toNat]

end Text
