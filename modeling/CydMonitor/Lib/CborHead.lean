import CydMonitor.Lib.BigEndian
import CydMonitor.Lib.ScanRelations

/-!
# Canonical CBOR heads

A head carries a major type and an argument in its shortest form. Writing and
reading heads are inverse to each other, so a reader of heads accepts one
encoding of each argument only.
-/

namespace Cbor

open BigEndian Scan

/-- The canonical head of a major type and an argument below `2 ^ 64`. -/
def head (major v : ℕ) : List UInt8 :=
  if v < 24 then [UInt8.ofNat (major * 32 + v)]
  else if v < 2 ^ 8 then UInt8.ofNat (major * 32 + 24) :: bytes 1 v
  else if v < 2 ^ 16 then UInt8.ofNat (major * 32 + 25) :: bytes 2 v
  else if v < 2 ^ 32 then UInt8.ofNat (major * 32 + 26) :: bytes 4 v
  else UInt8.ofNat (major * 32 + 27) :: bytes 8 v

/-- How many bytes follow an initial byte with this additional information, and
the least argument that needs them. -/
def argument : ℕ → Option (ℕ × ℕ)
  | 24 => some (1, 24)
  | 25 => some (2, 2 ^ 8)
  | 26 => some (4, 2 ^ 16)
  | 27 => some (8, 2 ^ 32)
  | _ => none

/-- Reads a canonical head of the given major type. -/
def scanHead (major : ℕ) : Scan UInt8 Unit ℕ
  | [] => .error ()
  | b :: l =>
    if b.toNat / 32 ≠ major then .error ()
    else if b.toNat % 32 < 24 then .ok (b.toNat % 32, l)
    else match argument (b.toNat % 32) with
      | none => .error ()
      | some (n, least) =>
        if l.length < n ∨ value (l.take n) < least then .error ()
        else .ok (value (l.take n), l.drop n)

theorem scanHead_cons (m : ℕ) (b : UInt8) (l : List UInt8) :
    scanHead m (b :: l) =
      if b.toNat / 32 ≠ m then .error ()
      else if b.toNat % 32 < 24 then .ok (b.toNat % 32, l)
      else match argument (b.toNat % 32) with
        | none => .error ()
        | some (n, least) =>
          if l.length < n ∨ value (l.take n) < least then .error ()
          else .ok (value (l.take n), l.drop n) := rfl

theorem head_ne_nil (m v : ℕ) : head m v ≠ [] := by
  unfold head
  split_ifs <;> simp

theorem length_head_le (m v : ℕ) : (head m v).length ≤ 9 := by
  unfold head
  split_ifs <;> simp

theorem three_le_length_head {m v : ℕ} (h : 2 ^ 8 ≤ v) : 3 ≤ (head m v).length := by
  have h24 : ¬v < 24 := by omega
  unfold head
  rw [if_neg h24, if_neg (not_lt.mpr h)]
  split_ifs <;> simp only [List.length_cons, length_bytes] <;> omega

theorem length_head_le_three {m v : ℕ} (h : v < 2 ^ 16) : (head m v).length ≤ 3 := by
  unfold head
  rw [if_pos h]
  split_ifs <;> simp

theorem length_head_pos (m v : ℕ) : 0 < (head m v).length :=
  List.length_pos_of_ne_nil (head_ne_nil m v)

theorem head_of_lt {m v : ℕ} (h : v < 24) : head m v = [UInt8.ofNat (m * 32 + v)] := if_pos h

private theorem toNat_initial {m a : ℕ} (hm : m < 8) (ha : a < 32) :
    (UInt8.ofNat (m * 32 + a)).toNat = m * 32 + a := by
  have h : m * 32 + a < 256 := by omega
  simpa using h

private theorem argument_cases {a n least : ℕ} (h : argument a = some (n, least)) :
    (a = 24 ∧ n = 1 ∧ least = 24) ∨ (a = 25 ∧ n = 2 ∧ least = 2 ^ 8) ∨
      (a = 26 ∧ n = 4 ∧ least = 2 ^ 16) ∨ (a = 27 ∧ n = 8 ∧ least = 2 ^ 32) := by
  unfold argument at h
  split at h <;> cases h <;> simp

/-- The head of an argument that needs `n` following bytes. -/
private theorem head_of_argument {m a n least v : ℕ} (ha : argument a = some (n, least))
    (hl : least ≤ v) (hv : v < 256 ^ n) :
    head m v = UInt8.ofNat (m * 32 + a) :: bytes n v := by
  rcases argument_cases ha with ⟨rfl, rfl, rfl⟩ | ⟨rfl, rfl, rfl⟩ | ⟨rfl, rfl, rfl⟩ |
      ⟨rfl, rfl, rfl⟩ <;>
    · unfold head
      split_ifs <;> first | rfl | omega

/-- Every argument below `2 ^ 64` has a head: short, or with its least width. -/
private theorem head_cases {v : ℕ} (hv : v < 2 ^ 64) :
    v < 24 ∨ ∃ a n least, argument a = some (n, least) ∧ a < 32 ∧ 24 ≤ a ∧
      least ≤ v ∧ v < 256 ^ n := by
  rcases Nat.lt_or_ge v 24 with h | h
  · exact Or.inl h
  right
  rcases Nat.lt_or_ge v (2 ^ 8) with h8 | h8
  · exact ⟨24, 1, 24, rfl, by omega, by omega, h, by omega⟩
  rcases Nat.lt_or_ge v (2 ^ 16) with h16 | h16
  · exact ⟨25, 2, 2 ^ 8, rfl, by omega, by omega, h8, by omega⟩
  rcases Nat.lt_or_ge v (2 ^ 32) with h32 | h32
  · exact ⟨26, 4, 2 ^ 16, rfl, by omega, by omega, h16, by omega⟩
  · exact ⟨27, 8, 2 ^ 32, rfl, by omega, by omega, h32, by omega⟩

theorem scanHead_head {m v : ℕ} (hm : m < 8) (hv : v < 2 ^ 64) (r : List UInt8) :
    scanHead m (head m v ++ r) = .ok (v, r) := by
  rcases head_cases hv with h | ⟨a, n, least, harg, ha, ha24, hleast, hvn⟩
  · have hb := toNat_initial hm (show v < 32 by omega)
    have hmod : (m * 32 + v) % 32 = v := by omega
    have hdiv : (m * 32 + v) / 32 = m := by omega
    rw [head_of_lt h, List.cons_append, scanHead_cons, hb, hmod, hdiv, if_neg (by simp),
      if_pos h, List.nil_append]
  · have hb := toNat_initial hm ha
    have hmod : (m * 32 + a) % 32 = a := by omega
    have hdiv : (m * 32 + a) / 32 = m := by omega
    have htake : (bytes n v ++ r).take n = bytes n v := List.take_left' (length_bytes n v)
    have hdrop : (bytes n v ++ r).drop n = r := List.drop_left' (length_bytes n v)
    rw [head_of_argument harg hleast hvn, List.cons_append]
    have hlen : ¬((bytes n v ++ r).length < n ∨ v < least) := by simp; omega
    rw [scanHead_cons, hb, hmod, hdiv, if_neg (by simp), if_neg (by omega), harg]
    simp only [htake, hdrop, value_bytes hvn]
    rw [if_neg hlen]

theorem scanHead_sound {m : ℕ} {l r : List UInt8} {v : ℕ} (h : scanHead m l = .ok (v, r)) :
    l = head m v ++ r ∧ v < 2 ^ 64 := by
  cases l with
  | nil => cases h
  | cons b l =>
    have hb : b = UInt8.ofNat (b.toNat / 32 * 32 + b.toNat % 32) := by
      rw [show b.toNat / 32 * 32 + b.toNat % 32 = b.toNat by omega, UInt8.ofNat_toNat]
    rw [scanHead_cons] at h
    split_ifs at h with hm hshort
    · simp only [not_not] at hm
      cases h
      refine ⟨?_, by omega⟩
      rw [head_of_lt hshort, ← hm, ← hb, List.cons_append, List.nil_append]
    · simp only [not_not] at hm
      split at h
      · cases h
      · rename_i n least harg
        split_ifs at h with hbad
        cases h
        have hlen : (l.take n).length = n := by simp; omega
        have hvn := value_lt (l.take n)
        rw [hlen] at hvn
        have hn : n ≤ 8 := by have := argument_cases harg; omega
        refine ⟨?_, lt_of_lt_of_le hvn ?_⟩
        · rw [head_of_argument harg (by omega) hvn, bytes_of_value hlen, ← hm, ← hb,
            List.cons_append, List.take_append_drop]
        · calc 256 ^ n ≤ 256 ^ 8 := Nat.pow_le_pow_right (by omega) hn
            _ = 2 ^ 64 := by norm_num

theorem reads_scanHead {m v : ℕ} (hm : m < 8) (hv : v < 2 ^ 64) :
    Reads (scanHead m) (head m v) v := scanHead_head hm hv

theorem local_scanHead (m : ℕ) : Local (scanHead m) := by
  intro l v r h
  cases l with
  | nil => cases h
  | cons b l =>
    have hm : m < 8 := by
      by_contra hm
      have hb := b.toNat_lt
      rw [scanHead_cons, if_pos (by omega)] at h
      cases h
    obtain ⟨hl, hv⟩ := scanHead_sound h
    exact ⟨head m v, hl, reads_scanHead hm hv⟩

theorem consumes_scanHead (m : ℕ) : Consumes (scanHead m) := by
  intro l v r h
  obtain ⟨rfl, -⟩ := scanHead_sound h
  have := length_head_pos m v
  simp only [List.length_append]
  omega

/-- Heads of one major type are uniquely decodable. -/
theorem head_append_inj {m v w : ℕ} {r s : List UInt8} (hm : m < 8) (hv : v < 2 ^ 64)
    (hw : w < 2 ^ 64) (h : head m v ++ r = head m w ++ s) : v = w ∧ r = s := by
  have h₁ := scanHead_head hm hv r
  rw [h, scanHead_head hm hw s] at h₁
  cases h₁
  exact ⟨rfl, rfl⟩

/-- Takes a byte string of exactly `n` bytes. -/
def octets {ε : Type} (n : ℕ) (e : ε) : Scan UInt8 ε (Octets n) := fun l =>
  if h : l.length < n then .error e
  else .ok (⟨l.take n, by simp; omega⟩, l.drop n)

theorem octets_eq_ok {ε : Type} {n : ℕ} {e : ε} {l r : List UInt8} {x : Octets n} :
    octets n e l = .ok (x, r) ↔ l = x.val ++ r := by
  obtain ⟨u, hu⟩ := x
  unfold octets
  split_ifs with h
  · simp only [false_iff]
    rintro rfl
    simp only [List.length_append] at h
    omega
  · simp only [Except.ok.injEq, Prod.mk.injEq, Subtype.mk.injEq]
    constructor
    · rintro ⟨rfl, rfl⟩
      exact (List.take_append_drop n l).symm
    · rintro rfl
      exact ⟨List.take_left' hu, List.drop_left' hu⟩

theorem reads_octets {ε : Type} {n : ℕ} (x : Octets n) (e : ε) :
    Reads (octets n e) x.val x := fun _ => octets_eq_ok.mpr rfl

theorem local_octets {ε : Type} (n : ℕ) (e : ε) : Local (octets n e) :=
  fun _ x _ h => ⟨x.val, octets_eq_ok.mp h, reads_octets x e⟩

theorem failsOnly_octets {ε : Type} (n : ℕ) (e : ε) : FailsOnly e (octets n e) := by
  intro l e' h
  unfold octets at h
  split_ifs at h
  cases h
  rfl

end Cbor
