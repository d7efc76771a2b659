import CydMonitor.Hooks.Json
import Mathlib.Data.List.DropRight

/-!
# The grammar of JSON texts

Which texts denote a value, by the productions of RFC 8259, and how many levels a value has.
-/

namespace CydMonitor.Hooks

def Ws (text : List Char) : Prop := ∀ c ∈ text, isWs c = true

def Digits (text : List Char) : Prop := text ≠ [] ∧ ∀ c ∈ text, c.isDigit = true

def IsInteger (text : List Char) : Prop := text = ['0'] ∨ Digits text ∧ text.head? ≠ some '0'

def IsFraction (text : List Char) : Prop := text = [] ∨ ∃ ds, Digits ds ∧ text = '.' :: ds

def IsExponent (text : List Char) : Prop :=
  text = [] ∨ ∃ e sign ds, (e = 'e' ∨ e = 'E') ∧ (sign = [] ∨ sign = ['+'] ∨ sign = ['-']) ∧
    Digits ds ∧ text = e :: (sign ++ ds)

def IsNumber (text : List Char) : Prop :=
  ∃ minus int frac exp, (minus = [] ∨ minus = ['-']) ∧ IsInteger int ∧ IsFraction frac ∧
    IsExponent exp ∧ text = minus ++ (int ++ (frac ++ exp))

/-- Four hexadecimal digits. -/
def HexText (code : ℕ) (text : List Char) : Prop :=
  ∃ a b c d a' b' c' d', text = [a, b, c, d] ∧ hexVal a = some a' ∧ hexVal b = some b' ∧
    hexVal c = some c' ∧ hexVal d = some d' ∧ code = ((a' * 16 + b') * 16 + c') * 16 + d'

/-- A character of a string as it may be written. -/
inductive CharText : Char → List Char → Prop where
  | plain (c : Char) (h : c ≠ '"' ∧ c ≠ '\\' ∧ 0x20 ≤ c.toNat) : CharText c [c]
  | short (esc c : Char) (h : (esc, c) ∈ escapes) : CharText c ['\\', esc]
  | unit (c : Char) (text : List Char) (h : HexText c.toNat text) : CharText c ('\\' :: 'u' :: text)
  | pair (c : Char) (high low : ℕ) (first second : List Char) (hfirst : HexText high first)
      (hsecond : HexText low second) (hhigh : 0xD800 ≤ high ∧ high < 0xDC00)
      (hlow : 0xDC00 ≤ low ∧ low < 0xE000)
      (hc : c.toNat = 0x10000 + (high - 0xD800) * 2 ^ 10 + (low - 0xDC00)) :
      CharText c ('\\' :: 'u' :: (first ++ '\\' :: 'u' :: second))

/-- What stands between the quotes of a string. -/
inductive Body : List Char → List Char → Prop where
  | nil : Body [] []
  | cons {c : Char} {s text rest : List Char} (h : CharText c text) (hs : Body s rest) :
      Body (c :: s) (text ++ rest)

def StringText (s text : List Char) : Prop := ∃ body, Body s body ∧ text = '"' :: (body ++ ['"'])

mutual

/-- The text denotes the value. -/
inductive Denotes : Json → List Char → Prop where
  | null : Denotes .null "null".toList
  | true : Denotes (.bool true) "true".toList
  | false : Denotes (.bool false) "false".toList
  | num {text : List Char} (h : IsNumber text) : Denotes (.num text) text
  | str {s text : List Char} (h : StringText s text) : Denotes (.str s) text
  | noItems {w : List Char} (hw : Ws w) : Denotes (.arr []) ('[' :: (w ++ [']']))
  | items {items : List Json} {text : List Char} (h : Items items text) :
      Denotes (.arr items) ('[' :: (text ++ [']']))
  | noMembers {w : List Char} (hw : Ws w) : Denotes (.obj []) ('\x7b' :: (w ++ ['\x7d']))
  | members {fields : List (List Char × Json)} {text : List Char} (h : Members fields text) :
      Denotes (.obj fields) ('\x7b' :: (text ++ ['\x7d']))

/-- One value or more between commas. -/
inductive Items : List Json → List Char → Prop where
  | last {v : Json} {w text w' : List Char} (hw : Ws w) (h : Denotes v text) (hw' : Ws w') :
      Items [v] (w ++ (text ++ w'))
  | more {v : Json} {items : List Json} {w text w' rest : List Char} (hw : Ws w)
      (h : Denotes v text) (hw' : Ws w') (hs : Items items rest) :
      Items (v :: items) (w ++ (text ++ (w' ++ ',' :: rest)))

/-- One member or more between commas. -/
inductive Members : List (List Char × Json) → List Char → Prop where
  | last {key : List Char} {v : Json} {w name w₁ w₂ text w' : List Char} (hw : Ws w)
      (hkey : StringText key name) (hw₁ : Ws w₁) (hw₂ : Ws w₂) (h : Denotes v text) (hw' : Ws w') :
      Members [(key, v)] (w ++ (name ++ (w₁ ++ ':' :: (w₂ ++ (text ++ w')))))
  | more {key : List Char} {v : Json} {fields : List (List Char × Json)}
      {w name w₁ w₂ text w' rest : List Char} (hw : Ws w) (hkey : StringText key name)
      (hw₁ : Ws w₁) (hw₂ : Ws w₂) (h : Denotes v text) (hw' : Ws w') (hs : Members fields rest) :
      Members ((key, v) :: fields)
        (w ++ (name ++ (w₁ ++ ':' :: (w₂ ++ (text ++ (w' ++ ',' :: rest))))))

end

/-- A value and the white space around it. -/
def Document (v : Json) (text : List Char) : Prop :=
  ∃ w body w', Ws w ∧ Denotes v body ∧ Ws w' ∧ text = w ++ (body ++ w')

mutual

/-- The levels of values in a value, itself included. -/
def Json.depth : Json → ℕ
  | .null | .bool _ | .num _ | .str _ => 1
  | .arr items => depthItems items + 1
  | .obj fields => depthFields fields + 1

def depthItems : List Json → ℕ
  | [] => 0
  | v :: items => max v.depth (depthItems items)

def depthFields : List (List Char × Json) → ℕ
  | [] => 0
  | (_, v) :: fields => max v.depth (depthFields fields)

end

mutual

/-- No object has a key twice. -/
def Json.Distinct : Json → Prop
  | .null | .bool _ | .num _ | .str _ => True
  | .arr items => DistinctItems items
  | .obj fields => (fields.map Prod.fst).Nodup ∧ DistinctFields fields

def DistinctItems : List Json → Prop
  | [] => True
  | v :: items => v.Distinct ∧ DistinctItems items

def DistinctFields : List (List Char × Json) → Prop
  | [] => True
  | (_, v) :: fields => v.Distinct ∧ DistinctFields fields

end

@[simp] theorem ws_nil : Ws [] := fun _ h => absurd h List.not_mem_nil

theorem Ws.append {a b : List Char} (ha : Ws a) (hb : Ws b) : Ws (a ++ b) := by
  intro c hc
  cases List.mem_append.mp hc with
  | inl h => exact ha c h
  | inr h => exact hb c h

theorem exists_ws (text : List Char) : ∃ w, Ws w ∧ text = w ++ skipWs text :=
  ⟨text.takeWhile isWs, fun _ => List.mem_takeWhile_imp,
    List.takeWhile_append_dropWhile.symm⟩

theorem skipWs_skipWs (text : List Char) : skipWs (skipWs text) = skipWs text :=
  List.dropWhile_idempotent ..

theorem skipWs_ws {w : List Char} (h : Ws w) (rest : List Char) :
    skipWs (w ++ rest) = skipWs rest :=
  List.dropWhile_append_of_pos h

theorem skipWs_of_not {c : Char} (h : isWs c = false) (rest : List Char) :
    skipWs (c :: rest) = c :: rest :=
  List.dropWhile_cons_of_neg (by simp [h])

theorem skipWs_to {w : List Char} (h : Ws w) {c : Char} (hc : isWs c = false) (rest : List Char) :
    skipWs (w ++ c :: rest) = c :: rest := by
  rw [skipWs_ws h, skipWs_of_not hc]

theorem skipWs_all {w : List Char} (h : Ws w) : skipWs w = [] :=
  List.dropWhile_eq_nil_iff.mpr h

/-- The next character is none that a number goes on with. -/
def Stops (rest : List Char) : Prop :=
  ∀ c ∈ rest.head?, c.isDigit = false ∧ c ≠ '.' ∧ c ≠ 'e' ∧ c ≠ 'E'

def NoDigit (rest : List Char) : Prop := ∀ c ∈ rest.head?, c.isDigit = false

theorem Stops.noDigit {rest : List Char} (h : Stops rest) : NoDigit rest := fun c hc => (h c hc).1

theorem dropWhile_digits {ds rest : List Char} (hds : Digits ds) (hrest : NoDigit rest) :
    (ds ++ rest).dropWhile Char.isDigit = rest := by
  rw [List.dropWhile_append_of_pos hds.2]
  cases rest with
  | nil => rfl
  | cons c rest => exact List.dropWhile_cons_of_neg (by simp [hrest c rfl])

theorem digits1_spelled {ds rest : List Char} (hds : Digits ds) (hrest : NoDigit rest) :
    digits1 (ds ++ rest) = .ok rest := by
  have hsome : ((ds ++ rest).takeWhile Char.isDigit).isEmpty = false := by
    obtain ⟨d, ds', rfl⟩ := List.exists_cons_of_ne_nil hds.1
    rw [List.cons_append, List.takeWhile_cons_of_pos (hds.2 d List.mem_cons_self)]
    rfl
  rw [digits1, hsome, dropWhile_digits hds hrest]
  rfl

theorem digits1_sound {text rest : List Char} (h : digits1 text = .ok rest) :
    ∃ ds, Digits ds ∧ text = ds ++ rest := by
  rw [digits1] at h
  split at h
  · cases h
  · next hne =>
    cases h
    refine ⟨text.takeWhile Char.isDigit, ⟨by simpa using hne, fun _ => List.mem_takeWhile_imp⟩, ?_⟩
    exact List.takeWhile_append_dropWhile.symm

theorem integer_sound {text rest : List Char} (h : integer text = .ok rest) :
    ∃ int, IsInteger int ∧ text = int ++ rest := by
  cases text with
  | nil => cases h
  | cons c text =>
    rw [integer] at h
    split_ifs at h with hzero hdigit
    · cases h
      exact ⟨['0'], .inl rfl, by rw [hzero]; rfl⟩
    · cases h
      refine ⟨c :: text.takeWhile Char.isDigit, .inr ⟨⟨by simp, ?_⟩, by simpa using hzero⟩, ?_⟩
      · exact List.forall_mem_cons.mpr ⟨hdigit, fun _ => List.mem_takeWhile_imp⟩
      · rw [List.cons_append, List.takeWhile_append_dropWhile]
    · cases h

theorem integer_spelled {int rest : List Char} (h : IsInteger int) (hrest : NoDigit rest) :
    integer (int ++ rest) = .ok rest := by
  cases h with
  | inl hzero =>
    rw [hzero]
    rfl
  | inr h =>
    obtain ⟨hds, hhead⟩ := h
    obtain ⟨d, ds, rfl⟩ := List.exists_cons_of_ne_nil hds.1
    have hd := hds.2 d List.mem_cons_self
    have hdrop := dropWhile_digits hds hrest
    rw [List.cons_append, List.dropWhile_cons_of_pos hd] at hdrop
    rw [List.cons_append, integer, if_neg (by simpa using hhead), if_pos hd, hdrop]

theorem fraction_sound {text rest : List Char} (h : fraction text = .ok rest) :
    ∃ frac, IsFraction frac ∧ text = frac ++ rest := by
  cases text with
  | nil =>
    cases h
    exact ⟨[], .inl rfl, rfl⟩
  | cons c text =>
    rw [fraction] at h
    split_ifs at h with hdot
    · obtain ⟨ds, hds, htext⟩ := digits1_sound h
      exact ⟨'.' :: ds, .inr ⟨ds, hds, rfl⟩, by rw [hdot, htext]; rfl⟩
    · cases h
      exact ⟨[], .inl rfl, rfl⟩

theorem fraction_spelled {frac rest : List Char} (h : IsFraction frac) (hrest : NoDigit rest)
    (hdot : ∀ c ∈ rest.head?, c ≠ '.') : fraction (frac ++ rest) = .ok rest := by
  cases h with
  | inl hnil =>
    rw [hnil, List.nil_append]
    cases rest with
    | nil => rfl
    | cons c rest => rw [fraction, if_neg (hdot c rfl)]
  | inr h =>
    obtain ⟨ds, hds, rfl⟩ := h
    rw [List.cons_append, fraction, if_pos rfl]
    exact digits1_spelled hds hrest

theorem exponent_sound {text rest : List Char} (h : exponent text = .ok rest) :
    ∃ exp, IsExponent exp ∧ text = exp ++ rest := by
  cases text with
  | nil =>
    cases h
    exact ⟨[], .inl rfl, rfl⟩
  | cons c text =>
    rw [exponent] at h
    split_ifs at h with he hsign
    · obtain ⟨ds, hds, htail⟩ := digits1_sound h
      cases text with
      | nil => cases hsign
      | cons s text =>
        obtain rfl : text = ds ++ rest := htail
        have hs : s = '+' ∨ s = '-' := by simpa [isSign] using hsign
        refine ⟨c :: ([s] ++ ds), .inr ⟨c, [s], ds, he, ?_, hds, rfl⟩, rfl⟩
        simpa using hs
    · obtain ⟨ds, hds, rfl⟩ := digits1_sound h
      exact ⟨c :: ds, .inr ⟨c, [], ds, he, .inl rfl, hds, rfl⟩, rfl⟩
    · cases h
      exact ⟨[], .inl rfl, rfl⟩

theorem exponent_spelled {exp rest : List Char} (h : IsExponent exp) (hrest : Stops rest) :
    exponent (exp ++ rest) = .ok rest := by
  cases h with
  | inl hnil =>
    rw [hnil, List.nil_append]
    cases rest with
    | nil => rfl
    | cons c rest =>
      obtain ⟨-, -, he, hE⟩ := hrest c rfl
      rw [exponent, if_neg (by simp [he, hE])]
  | inr h =>
    obtain ⟨e, sign, ds, he, hsign, hds, rfl⟩ := h
    have hread := digits1_spelled hds hrest.noDigit
    rw [List.cons_append, exponent, if_pos he]
    obtain rfl | rfl | rfl := hsign
    · obtain ⟨d, ds', rfl⟩ := List.exists_cons_of_ne_nil hds.1
      have hd := hds.2 d List.mem_cons_self
      have hnosign : isSign d = false := by
        rw [isSign, Bool.or_eq_false_iff, decide_eq_false_iff_not, decide_eq_false_iff_not]
        refine ⟨fun heq => ?_, fun heq => ?_⟩
        · rw [heq] at hd
          exact absurd hd (by decide)
        · rw [heq] at hd
          exact absurd hd (by decide)
      rw [if_neg (by simp [hnosign])]
      exact hread
    · exact hread
    · exact hread

/-- A part of a number that is not there or starts with a sign of its own. -/
private theorem noDigit_append {part rest : List Char} (h : IsExponent part) (hrest : Stops rest) :
    NoDigit (part ++ rest) ∧ ∀ c ∈ (part ++ rest).head?, c ≠ '.' := by
  cases h with
  | inl hnil => exact hnil ▸ ⟨hrest.noDigit, fun c hc => (hrest c hc).2.1⟩
  | inr h =>
    obtain ⟨e, sign, ds, he, -, -, rfl⟩ := h
    refine ⟨fun c hc => ?_, fun c hc => ?_⟩
    · obtain rfl := Option.some.inj hc
      cases he with
      | inl h => rw [h]; rfl
      | inr h => rw [h]; rfl
    · obtain rfl := Option.some.inj hc
      cases he with
      | inl h => rw [h]; decide
      | inr h => rw [h]; decide

private theorem noDigit_fraction {frac rest : List Char} (h : IsFraction frac)
    (hrest : NoDigit rest) : NoDigit (frac ++ rest) := by
  cases h with
  | inl hnil => exact hnil ▸ hrest
  | inr h =>
    obtain ⟨ds, -, rfl⟩ := h
    intro c hc
    obtain rfl := Option.some.inj hc
    rfl

theorem number_sound {text rest : List Char} {v : Json} (h : number text = .ok (v, rest)) :
    ∃ t, IsNumber t ∧ v = .num t ∧ text = t ++ rest := by
  rw [number] at h
  obtain ⟨minus, start, hminus, htext, hstart⟩ : ∃ minus start, (minus = [] ∨ minus = ['-']) ∧
      text = minus ++ start ∧ (if text.head? = some '-' then text.tail else text) = start := by
    by_cases hsign : text.head? = some '-'
    · obtain ⟨tail, rfl⟩ := List.head?_eq_some_iff.mp hsign
      exact ⟨['-'], tail, .inr rfl, rfl, rfl⟩
    · exact ⟨[], text, .inl rfl, rfl, if_neg hsign⟩
  rw [hstart] at h
  cases hint : integer start with
  | error e =>
    rw [hint] at h
    cases h
  | ok rest₁ =>
    rw [hint] at h
    cases hfrac : fraction rest₁ with
    | error e =>
      simp only [bind, Except.bind, hfrac] at h
      cases h
    | ok rest₂ =>
      cases hexp : exponent rest₂ with
      | error e =>
        simp only [bind, Except.bind, hfrac, hexp] at h
        cases h
      | ok rest₃ =>
        simp only [bind, Except.bind, hfrac, hexp] at h
        obtain ⟨int, hisInt, rfl⟩ := integer_sound hint
        obtain ⟨frac, hisFrac, rfl⟩ := fraction_sound hfrac
        obtain ⟨exp, hisExp, rfl⟩ := exponent_sound hexp
        have hall : text = (minus ++ (int ++ (frac ++ exp))) ++ rest₃ := by
          rw [htext]
          simp only [List.append_assoc]
        cases h
        refine ⟨_, ⟨minus, int, frac, exp, hminus, hisInt, hisFrac, hisExp, rfl⟩, ?_, hall⟩
        rw [hall, List.length_append, Nat.add_sub_cancel, List.take_left]

theorem number_spelled {t rest : List Char} (h : IsNumber t) (hrest : Stops rest) :
    number (t ++ rest) = .ok (.num t, rest) := by
  obtain ⟨minus, int, frac, exp, hminus, hint, hfrac, hexp, rfl⟩ := h
  obtain ⟨hnoexp, hnodot⟩ := noDigit_append hexp hrest
  have hstart (text : List Char) (htext : text = (minus ++ (int ++ (frac ++ exp))) ++ rest) :
      (if text.head? = some '-' then text.tail else text) = int ++ (frac ++ (exp ++ rest)) := by
    rw [htext]
    obtain rfl | rfl := hminus
    · obtain ⟨d, ds, hcons, hd⟩ : ∃ d ds, int = d :: ds ∧ d ≠ '-' := by
        obtain rfl | ⟨hds, -⟩ := hint
        · exact ⟨'0', [], rfl, by decide⟩
        · obtain ⟨d, ds, rfl⟩ := List.exists_cons_of_ne_nil hds.1
          refine ⟨d, ds, rfl, fun heq => ?_⟩
          have hdigit := hds.2 d List.mem_cons_self
          rw [heq] at hdigit
          exact absurd hdigit (by decide)
      rw [hcons, if_neg (by simpa using hd)]
      simp only [List.append_assoc, List.nil_append]
    · simp
  have hread₁ := integer_spelled hint (noDigit_fraction hfrac hnoexp)
  have hread₂ := fraction_spelled hfrac hnoexp hnodot
  have hread₃ := exponent_spelled hexp hrest
  rw [number, hstart _ rfl, hread₁]
  simp only [bind, Except.bind, hread₂, hread₃, pure, Except.pure]
  rw [@List.length_append _ (minus ++ (int ++ (frac ++ exp))), Nat.add_sub_cancel,
    List.take_left]

end CydMonitor.Hooks
