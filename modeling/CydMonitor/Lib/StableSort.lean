import Mathlib.Data.List.Sort
import Mathlib.Data.List.Nodup

/-!
# Ranks in a stable sort

How far an element of a list comes in its stable sort: past what is strictly before it, and
past its equals that stand before it in the list.
-/

namespace StableSort

open List

variable {α : Type} {le : α → α → Bool} {l before after : List α} {x y : α}

/-- What a stable sort puts before `x`, where `before` is what the list holds before it. -/
def precedes [DecidableEq α] (le : α → α → Bool) (before : List α) (x y : α) : Bool :=
  !le x y || (le y x && before.contains y)

theorem precedes_filter [DecidableEq α] {p : α → Bool} (hy : p y = true) :
    precedes le (before.filter p) x y = precedes le before x y := by
  simp [precedes, List.contains_eq_mem, List.mem_filter, hy]

/-- The second of two in a list without repetitions comes after the first. -/
theorem mem_before_of_sublist (hnodup : (before ++ x :: after).Nodup)
    (h : [y, x] <+ before ++ x :: after) : y ∈ before := by
  have hx := List.nodup_cons.mp (List.nodup_append.mp hnodup).2.1
  obtain ⟨a, b, heq, ha, hb⟩ := List.sublist_append_iff.mp h
  cases a with
  | nil =>
    obtain rfl : [y, x] = b := heq
    have htail : [x] <+ after := by
      cases hb with
      | cons _ h => exact (List.sublist_cons_self y [x]).trans h
      | cons_cons _ h => exact h
    exact absurd (List.singleton_sublist.mp htail) hx.1
  | cons z a =>
    obtain rfl := (List.cons.inj heq).1
    exact ha.subset List.mem_cons_self

theorem sublist_of_mem_before (hy : y ∈ before) : [y, x] <+ before ++ x :: after :=
  (List.singleton_sublist.mpr hy).append (List.singleton_sublist.mpr List.mem_cons_self)

theorem mem_take_iff {n : ℕ} (hnodup : (before ++ x :: after).Nodup) :
    x ∈ (before ++ x :: after).take n ↔ before.length < n := by
  have hx : x ∉ before := fun h =>
    (List.nodup_append.mp hnodup).2.2 x h x List.mem_cons_self rfl
  constructor
  · intro h
    by_contra hn
    rw [List.take_append_of_le_length (Nat.le_of_not_lt hn)] at h
    exact hx (List.mem_of_mem_take h)
  · intro hn
    obtain ⟨k, rfl⟩ := Nat.exists_eq_add_of_lt hn
    rw [List.take_append, Nat.add_assoc, Nat.add_sub_cancel_left, List.take_succ_cons]
    exact List.mem_append_right _ List.mem_cons_self

section Rank

variable [DecidableEq α] (htrans : ∀ a b c, le a b = true → le b c = true → le a c = true)
  (htotal : ∀ a b, (le a b || le b a) = true)
include htrans htotal

/-- In the sort, what precedes an element is what stands before it. -/
theorem precedes_iff {c d : List α} (hnodup : (before ++ x :: after).Nodup)
    (hsort : (before ++ x :: after).mergeSort le = c ++ x :: d) (hy : y ∈ c ++ x :: d) :
    precedes le before x y = true ↔ y ∈ c := by
  have hperm := List.mergeSort_perm (before ++ x :: after) le
  have hsorted := List.pairwise_mergeSort htrans htotal (before ++ x :: after)
  rw [hsort] at hperm hsorted
  have hnodup' : (c ++ x :: d).Nodup := hperm.nodup_iff.mpr hnodup
  have hx := (List.nodup_append.mp hnodup).2.2
  have hstable {a b : α} (hab : le a b = true) (h : [a, b] <+ before ++ x :: after) :
      [a, b] <+ c ++ x :: d := hsort ▸ List.pair_sublist_mergeSort htrans htotal hab h
  simp only [precedes, Bool.or_eq_true, Bool.not_eq_true', Bool.and_eq_true,
    List.contains_iff_mem]
  constructor
  · rintro (hlt | ⟨hle, hbefore⟩)
    · rcases List.mem_append.mp hy with hc | hd
      · exact hc
      · rcases List.mem_cons.mp hd with rfl | hd
        · have hself := htotal y y
          rw [Bool.or_self, hlt] at hself
          cases hself
        · have hafter := (List.pairwise_cons.mp (List.pairwise_append.mp hsorted).2.1).1 y hd
          rw [hlt] at hafter
          cases hafter
    · exact mem_before_of_sublist hnodup' (hstable hle (sublist_of_mem_before hbefore))
  · intro hc
    have hle : le y x = true :=
      (List.pairwise_append.mp hsorted).2.2 y hc x List.mem_cons_self
    cases hback : le x y with
    | false => exact .inl rfl
    | true =>
      refine .inr ⟨hle, ?_⟩
      have hmem : y ∈ before ++ x :: after := hperm.mem_iff.mp (List.mem_append_left _ hc)
      rcases List.mem_append.mp hmem with h | h
      · exact h
      · have hne : y ≠ x := fun heq =>
          (List.nodup_append.mp hnodup').2.2 y hc x List.mem_cons_self heq
        have hlist : [x, y] <+ before ++ x :: after :=
          (List.cons_sublist_cons.mpr (List.singleton_sublist.mpr
            ((List.mem_cons.mp h).resolve_left hne))).trans (List.sublist_append_right _ _)
        have hsub := hstable hback hlist
        obtain ⟨c₁, c₂, rfl⟩ := List.append_of_mem hc
        rw [List.append_assoc, List.cons_append] at hsub hnodup'
        have hxc := mem_before_of_sublist hnodup' hsub
        have hdisjoint := (List.nodup_append.mp (hperm.nodup_iff.mpr hnodup)).2.2
        exact absurd rfl (hdisjoint x (List.mem_append_left _ hxc) x List.mem_cons_self)

/-- An element is among the first ones of the sort when few enough precede it. -/
theorem mem_take_mergeSort {n : ℕ} (hnodup : (before ++ x :: after).Nodup) :
    x ∈ ((before ++ x :: after).mergeSort le).take n ↔
      (before ++ x :: after).countP (precedes le before x) < n := by
  have hperm := List.mergeSort_perm (before ++ x :: after) le
  have hx : x ∈ (before ++ x :: after).mergeSort le :=
    hperm.mem_iff.mpr (List.mem_append_right _ List.mem_cons_self)
  obtain ⟨c, d, hsort⟩ := List.append_of_mem hx
  have hnodup' : (c ++ x :: d).Nodup := by
    rw [← hsort]
    exact hperm.nodup_iff.mpr hnodup
  have hiff {y : α} (hy : y ∈ c ++ x :: d) := precedes_iff htrans htotal hnodup hsort hy
  have hcount : (before ++ x :: after).countP (precedes le before x) = c.length := by
    rw [← hperm.countP_eq, hsort, List.countP_append, List.countP_eq_length.mpr fun y hy =>
      (hiff (List.mem_append_left _ hy)).mpr hy, List.countP_eq_zero.mpr, Nat.add_zero]
    intro y hy hprecedes
    have hc := (hiff (List.mem_append_right _ hy)).mp hprecedes
    exact (List.nodup_append.mp hnodup').2.2 y hc y hy rfl
  rw [hcount, hsort, mem_take_iff hnodup']

end Rank

end StableSort
