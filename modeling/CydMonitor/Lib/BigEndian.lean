import Mathlib.Tactic.Common
import Mathlib.Tactic.Linarith
import Mathlib.Tactic.NormNum
import Mathlib.Tactic.Positivity
import Mathlib.Tactic.Ring
import Mathlib.Algebra.Order.Ring.Nat

/-! # Big-endian numbers and fixed-length byte arrays -/

/-- An array of exactly `n` bytes. -/
abbrev Octets (n : ℕ) : Type := { bytes : List UInt8 // bytes.length = n }

namespace Octets

/-- The all-zero array. -/
def zero (n : ℕ) : Octets n := ⟨List.replicate n 0, List.length_replicate⟩

/-- A byte string of the right length, as an array. -/
def ofList? (n : ℕ) (bytes : List UInt8) : Option (Octets n) :=
  if h : bytes.length = n then some ⟨bytes, h⟩ else none

theorem ofList?_eq_some {n : ℕ} {bytes : List UInt8} {x : Octets n} :
    ofList? n bytes = some x ↔ x.val = bytes := by
  unfold ofList?
  split_ifs with h
  · rw [Option.some.injEq, Subtype.ext_iff]
    exact eq_comm
  · simp only [false_iff]
    rintro rfl
    exact h x.property

@[simp] theorem ofList?_val {n : ℕ} (x : Octets n) : ofList? n x.val = some x :=
  ofList?_eq_some.mpr rfl

end Octets

namespace BigEndian

/-- The low `n` bytes of a number, most significant first. -/
def bytes : ℕ → ℕ → List UInt8
  | 0, _ => []
  | n + 1, v => UInt8.ofNat (v / 256 ^ n) :: bytes n v

/-- The number a byte string spells. -/
def value (l : List UInt8) : ℕ := l.foldl (fun v b => v * 256 + b.toNat) 0

@[simp] theorem length_bytes (n v : ℕ) : (bytes n v).length = n := by
  induction n with
  | zero => rfl
  | succ n ih => simp [bytes, ih]

private theorem foldl_value (l : List UInt8) (a : ℕ) :
    l.foldl (fun v b => v * 256 + b.toNat) a = a * 256 ^ l.length + value l := by
  induction l generalizing a with
  | nil => simp [value]
  | cons b l ih =>
    have h : value (b :: l) = b.toNat * 256 ^ l.length + value l := by
      simp [value, ih b.toNat]
    simp only [List.foldl_cons, ih, h, List.length_cons, pow_succ]
    ring

@[simp] theorem value_nil : value [] = 0 := rfl

theorem value_cons (b : UInt8) (l : List UInt8) :
    value (b :: l) = b.toNat * 256 ^ l.length + value l := by
  simp [value, foldl_value l b.toNat]

theorem value_lt (l : List UInt8) : value l < 256 ^ l.length := by
  induction l with
  | nil => simp
  | cons b l ih =>
    have hb : b.toNat < 256 := b.toNat_lt
    have h : (b.toNat + 1) * 256 ^ l.length ≤ 256 * 256 ^ l.length :=
      Nat.mul_le_mul_right _ hb
    rw [value_cons, List.length_cons, pow_succ]
    nlinarith

private theorem value_bytes_mod (n v : ℕ) : value (bytes n v) = v % 256 ^ n := by
  induction n with
  | zero => simp [bytes, Nat.mod_one]
  | succ n ih =>
    rw [bytes, value_cons, ih, length_bytes, pow_succ, Nat.mod_mul]
    simp [Nat.mul_comm, Nat.add_comm]

theorem value_bytes {n v : ℕ} (h : v < 256 ^ n) : value (bytes n v) = v := by
  rw [value_bytes_mod, Nat.mod_eq_of_lt h]

private theorem bytes_add_mul (n v k : ℕ) : bytes n (k * 256 ^ n + v) = bytes n v := by
  induction n generalizing k with
  | zero => rfl
  | succ n ih =>
    have hpos : 0 < 256 ^ n := by positivity
    have hdiv : (k * 256 ^ (n + 1) + v) / 256 ^ n = k * 256 + v / 256 ^ n := by
      rw [pow_succ, show k * (256 ^ n * 256) + v = v + 256 ^ n * (k * 256) by ring,
        Nat.add_mul_div_left _ _ hpos]
      omega
    have htail : bytes n (k * 256 ^ (n + 1) + v) = bytes n v := by
      rw [pow_succ, show k * (256 ^ n * 256) + v = (k * 256) * 256 ^ n + v by ring]
      exact ih _
    rw [bytes, bytes, hdiv, htail]
    congr 1
    apply UInt8.toNat_inj.mp
    simp

theorem bytes_value (l : List UInt8) : bytes l.length (value l) = l := by
  induction l with
  | nil => rfl
  | cons b l ih =>
    have hlt := value_lt l
    have hdiv : (b.toNat * 256 ^ l.length + value l) / 256 ^ l.length = b.toNat := by
      rw [Nat.mul_comm, Nat.mul_add_div (by positivity), Nat.div_eq_of_lt hlt, Nat.add_zero]
    rw [List.length_cons, bytes, value_cons, hdiv, bytes_add_mul, ih]
    simp

theorem bytes_of_value {n : ℕ} {l : List UInt8} (h : l.length = n) : bytes n (value l) = l := by
  subst h
  exact bytes_value l

end BigEndian
