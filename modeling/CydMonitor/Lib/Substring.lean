import CydMonitor.Lib.Text
import Mathlib.Data.List.Infix

/-!
# Words in a text

The first occurrence of a word, and all of them replaced from the left.
-/

namespace Text

variable {α : Type}

/-- A word without some element that occurs in a text does so on one side of that element. -/
theorem infix_split {word : List α} {c : α} (hc : c ∉ word) {a b : List α}
    (h : word <:+: a ++ c :: b) :
    word <:+: a ∨ word <:+: b := by
  obtain ⟨s, t, h⟩ := h
  rw [List.append_assoc] at h
  rcases List.append_eq_append_iff.mp h with ⟨m, ha, hm⟩ | ⟨m, hs, hm⟩
  · rcases List.append_eq_append_iff.mp hm with ⟨n, hm', hn⟩ | ⟨n, hword, hn⟩
    · exact .inl ⟨s, n, by rw [ha, hm', List.append_assoc]⟩
    · cases n with
      | nil => exact .inl ⟨s, [], by rw [ha, hword]; simp⟩
      | cons d n =>
        obtain ⟨rfl, -⟩ := List.cons.inj hn
        exact absurd (by rw [hword]; simp) hc
  · cases m with
    | nil =>
      cases word with
      | nil => exact .inl (List.nil_infix)
      | cons d word =>
        obtain ⟨rfl, -⟩ := List.cons.inj hm
        exact absurd List.mem_cons_self hc
    | cons d m =>
      obtain ⟨rfl, hb⟩ := List.cons.inj hm
      exact .inr ⟨m, t, (List.append_assoc m word t).trans hb.symm⟩

variable [DecidableEq α]

/-- The text before and after the first occurrence of a word. -/
def cut (word : List α) : List α → Option (List α × List α)
  | [] => if word = [] then some ([], []) else none
  | c :: text =>
    if word <+: c :: text then some ([], (c :: text).drop word.length)
    else (cut word text).map fun r => (c :: r.1, r.2)

/-- Replaces from the left; `skip` elements are passed over. -/
def replaceFrom (word new : List α) : (skip : ℕ) → List α → List α
  | _, [] => []
  | skip + 1, _ :: text => replaceFrom word new skip text
  | 0, c :: text =>
    if word <+: c :: text then new ++ replaceFrom word new (word.length - 1) text
    else c :: replaceFrom word new 0 text

/-- Every occurrence of a word replaced; the word is not empty. -/
def replace (word new text : List α) : List α := replaceFrom word new 0 text

def stripPrefix (c : α) : List α → Option (List α)
  | [] => none
  | d :: text => if d = c then some text else none

variable {word new text : List α}

theorem replaceFrom_drop (skip : ℕ) (text : List α) :
    replaceFrom word new skip text = replace word new (text.drop skip) := by
  induction text generalizing skip with
  | nil => cases skip <;> rfl
  | cons c text ih =>
    cases skip with
    | zero => rfl
    | succ skip => exact ih skip

/-- The word at the front is replaced. -/
theorem replace_word (hword : word ≠ []) (rest : List α) :
    replace word new (word ++ rest) = new ++ replace word new rest := by
  obtain ⟨c, tail, rfl⟩ := List.exists_cons_of_ne_nil hword
  rw [replace, List.cons_append, replaceFrom, if_pos ⟨rest, rfl⟩, replaceFrom_drop]
  simp

/-- An element that the word does not start with is kept. -/
theorem replace_cons {c : α} (hword : word ≠ []) (hc : word.head? ≠ some c) (rest : List α) :
    replace word new (c :: rest) = c :: replace word new rest := by
  obtain ⟨d, tail, rfl⟩ := List.exists_cons_of_ne_nil hword
  have hnot : ¬d :: tail <+: c :: rest := by
    intro h
    exact hc (by rw [List.head?_cons, (List.cons_prefix_cons.mp h).1])
  rw [replace, replaceFrom, if_neg hnot]
  rfl

/-- A text shorter than the word is kept. -/
theorem replace_short (h : text.length < word.length) : replace word new text = text := by
  induction text with
  | nil => rfl
  | cons c text ih =>
    have hnot : ¬word <+: c :: text := fun hp => absurd hp.length_le (by omega)
    rw [replace, replaceFrom, if_neg hnot]
    congr 1
    exact ih (by rw [List.length_cons] at h; omega)

/-- The first occurrence, where none comes before it. -/
theorem cut_first {a : List α} (hword : word ≠ []) (h : ¬word <:+: a ++ word.dropLast)
    (rest : List α) : cut word (a ++ (word ++ rest)) = some (a, rest) := by
  induction a with
  | nil =>
    obtain ⟨c, tail, rfl⟩ := List.exists_cons_of_ne_nil hword
    rw [List.nil_append, List.cons_append, cut, if_pos ⟨rest, rfl⟩]
    simp
  | cons c a ih =>
    have hnot : ¬word <+: c :: (a ++ (word ++ rest)) := by
      intro hp
      refine h ((List.prefix_of_prefix_length_le hp ?_ ?_).isInfix)
      · rw [List.cons_append, List.cons_prefix_cons]
        refine ⟨rfl, ?_⟩
        rw [List.prefix_append_right_inj]
        exact (List.dropLast_prefix word).trans (List.prefix_append word rest)
      · have hpos := List.length_pos_of_ne_nil hword
        rw [List.cons_append, List.length_cons, List.length_append, List.length_dropLast]
        omega
    have hrest : ¬word <:+: a ++ word.dropLast := fun hi =>
      h (hi.trans (List.infix_cons (List.infix_refl _)))
    rw [List.cons_append, cut, if_neg hnot, ih hrest]
    rfl

/-- A word that occurs has a first occurrence. -/
theorem exists_first (hword : word ≠ []) (h : word <:+: text) :
    ∃ a b, text = a ++ (word ++ b) ∧ ¬word <:+: a ++ word.dropLast := by
  induction text with
  | nil => exact absurd (List.eq_nil_of_infix_nil h) hword
  | cons c text ih =>
    by_cases hfront : word <+: c :: text
    · obtain ⟨b, hb⟩ := hfront
      refine ⟨[], b, hb.symm, fun hi => ?_⟩
      have hle := hi.length_le
      have hpos := List.length_pos_of_ne_nil hword
      rw [List.nil_append, List.length_dropLast] at hle
      omega
    · have hrest : word <:+: text := (List.infix_cons_iff.mp h).resolve_left hfront
      obtain ⟨a, b, rfl, hfirst⟩ := ih hrest
      refine ⟨c :: a, b, rfl, fun hi => ?_⟩
      obtain hp | hi := List.infix_cons_iff.mp hi
      · refine hfront (hp.trans (List.cons_prefix_cons.mpr ⟨rfl, ?_⟩))
        refine (List.prefix_append_right_inj a).mpr ?_
        exact (List.dropLast_prefix word).trans (List.prefix_append word b)
      · exact hfirst hi

end Text
