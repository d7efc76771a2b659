import Mathlib.Data.List.Lex
import Mathlib.Tactic.IntervalCases

/-!
# Numbers of a fixed width

Decimal numbers filled up with zeros, and their lexicographic order.
-/

namespace FixedWidth

/-- The decimal number, of at least so many digits. -/
def padded (width n : ℕ) : List Char :=
  List.replicate (width - (Nat.toDigits 10 n).length) '0' ++ Nat.toDigits 10 n

variable {width a b n : ℕ}

theorem padded_zero (h : 0 < width) : padded width 0 = List.replicate width '0' := by
  obtain ⟨w, rfl⟩ := Nat.exists_eq_add_of_le' h
  rw [padded, Nat.toDigits_zero, List.length_singleton, Nat.add_sub_cancel, ← List.replicate_succ']

/-- The last digit by itself. -/
theorem padded_succ (h : 0 < width) (n : ℕ) :
    padded (width + 1) n = padded width (n / 10) ++ [(n % 10).digitChar] := by
  by_cases hsmall : n < 10
  · rw [Nat.div_eq_of_lt hsmall, padded_zero h, padded, Nat.toDigits_of_lt_base hsmall,
      Nat.mod_eq_of_lt hsmall]
    rfl
  · rw [padded, padded, Nat.toDigits_of_base_le (by decide) (Nat.not_lt.mp hsmall),
      List.length_append, List.length_singleton, Nat.add_sub_add_right, List.append_assoc]

theorem length_le_padded (width n : ℕ) : width ≤ (padded width n).length := by
  rw [padded, List.length_append, List.length_replicate]
  omega

theorem length_padded (h : 0 < width) (hn : n < 10 ^ width) : (padded width n).length = width := by
  have hlength := (Nat.length_toDigits_le_iff (by decide : 1 < 10) h).mpr hn
  rw [padded, List.length_append, List.length_replicate]
  omega

theorem append_lt_append {xs ys r s : List Char} (h : xs.length = ys.length) :
    xs ++ r < ys ++ s ↔ xs < ys ∨ xs = ys ∧ r < s := by
  induction xs generalizing ys with
  | nil =>
    rw [List.length_eq_zero_iff.mp h.symm]
    simp
  | cons x xs ih =>
    cases ys with
    | nil => cases h
    | cons y ys =>
      rw [List.cons_append, List.cons_append, List.cons_lt_cons_iff, List.cons_lt_cons_iff,
        ih (Nat.succ.inj h), List.cons.injEq]
      tauto

private theorem digitChar_lt (ha : a < 10) (hb : b < 10) :
    (a.digitChar < b.digitChar ↔ a < b) ∧ (a.digitChar = b.digitChar ↔ a = b) := by
  have hall : ∀ i < 10, ∀ j < 10, (Nat.digitChar i < Nat.digitChar j ↔ i < j) ∧
      (Nat.digitChar i = Nat.digitChar j ↔ i = j) := by decide
  exact hall a ha b hb

/-- Numbers of the same width compare as their texts do. -/
theorem padded_lt (h : 0 < width) (ha : a < 10 ^ width) (hb : b < 10 ^ width) :
    (padded width a < padded width b ↔ a < b) ∧ (padded width a = padded width b ↔ a = b) := by
  induction width, h using Nat.le_induction generalizing a b with
  | base =>
    have ha : a < 10 := ha
    have hb : b < 10 := hb
    rw [padded, padded, Nat.toDigits_of_lt_base ha, Nat.toDigits_of_lt_base hb]
    obtain ⟨hlt, heq⟩ := digitChar_lt ha hb
    constructor
    · show [a.digitChar] < [b.digitChar] ↔ a < b
      simp only [List.cons_lt_cons_iff, hlt, List.lt_irrefl, and_false, or_false]
    · simp [heq]
  | succ width h ih =>
    rw [pow_succ] at ha hb
    have ha' : a / 10 < 10 ^ width := Nat.div_lt_of_lt_mul (by omega)
    have hb' : b / 10 < 10 ^ width := Nat.div_lt_of_lt_mul (by omega)
    have hlength : (padded width (a / 10)).length = (padded width (b / 10)).length :=
      (length_padded h ha').trans (length_padded h hb').symm
    obtain ⟨ihlt, iheq⟩ := ih ha' hb'
    obtain ⟨hlt, heq⟩ := digitChar_lt (Nat.mod_lt a (by decide : 0 < 10))
      (Nat.mod_lt b (by decide : 0 < 10))
    rw [padded_succ h, padded_succ h, append_lt_append hlength, ihlt, iheq]
    constructor
    · simp only [List.cons_lt_cons_iff, hlt, heq, List.lt_irrefl, and_false, or_false]
      omega
    · rw [List.append_singleton_inj, iheq, heq]
      omega

theorem padded_append_lt (h : 0 < width) (ha : a < 10 ^ width) (hb : b < 10 ^ width)
    {r s : List Char} : padded width a ++ r < padded width b ++ s ↔ a < b ∨ a = b ∧ r < s := by
  obtain ⟨hlt, heq⟩ := padded_lt h ha hb
  rw [append_lt_append ((length_padded h ha).trans (length_padded h hb).symm), hlt, heq]

end FixedWidth
