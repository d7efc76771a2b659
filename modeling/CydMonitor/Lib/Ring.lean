import Mathlib.Algebra.GroupWithZero.Nat
import Mathlib.Data.Fin.Basic
import Mathlib.Data.List.Range
import Mathlib.Logic.Function.Basic

/-!
# Ring storage

The list that a ring of fixed storage holds, from its head on, and what writing behind it and
moving the head do to that list.
-/

namespace Ring

variable {α : Type} {N : ℕ} [NeZero N] {items : Fin N → α} {head size : ℕ}

/-- What stands at the places from the head on. -/
def contents (items : Fin N → α) (head size : ℕ) : List α :=
  (List.range size).map fun i => items (Fin.ofNat N (head + i))

@[simp] theorem length_contents : (contents items head size).length = size := by
  simp [contents]

/-- The first place is the head's. -/
theorem contents_succ :
    contents items head (size + 1) =
      items (Fin.ofNat N head) :: contents items (head + 1) size := by
  rw [contents, List.range_succ_eq_map, List.map_cons, List.map_map]
  refine congrArg _ (List.map_congr_left fun i _ => ?_)
  exact congrArg (fun n => items (Fin.ofNat N n)) (by omega)

theorem contents_mod : contents items (head % N) size = contents items head size := by
  refine List.map_congr_left fun i _ => congrArg items (Fin.ext ?_)
  exact Nat.mod_add_mod head N i

/-- A write behind the last place is appended. -/
theorem contents_write (h : size < N) (a : α) :
    contents (Function.update items (Fin.ofNat N (head + size)) a) head (size + 1) =
      contents items head size ++ [a] := by
  rw [contents, List.range_succ, List.map_append, List.map_singleton, Function.update_self]
  refine congrArg (· ++ [a]) (List.map_congr_left fun i hi => Function.update_of_ne ?_ _ _)
  intro heq
  have hmod : (head + i) % N = (head + size) % N := congrArg Fin.val heq
  have hi := List.mem_range.mp hi
  have hdvd := Nat.sub_mod_eq_zero_of_mod_eq hmod.symm
  rw [Nat.add_sub_add_left, Nat.mod_eq_of_lt (by omega)] at hdvd
  omega

end Ring
