import CydMonitor.Hooks.Grammar

/-!
# Strings as they are read

The reader of strings takes a text exactly when it is one of the grammar's, and as the characters
that the text denotes.
-/

namespace CydMonitor.Hooks

open Text (fromU32 fromU32_eq_some)

theorem hex4_sound {text rest : List Char} {code : ℕ} (h : hex4 text = .ok (code, rest)) :
    ∃ t, HexText code t ∧ text = t ++ rest := by
  match text with
  | [] | [_] | [_, _] | [_, _, _] => cases h
  | a :: b :: c :: d :: tail =>
    rw [hex4] at h
    split at h
    · next a' b' c' d' ha hb hc hd =>
      cases h
      exact ⟨[a, b, c, d], ⟨a, b, c, d, a', b', c', d', rfl, ha, hb, hc, hd, rfl⟩, rfl⟩
    · cases h

theorem hex4_spelled {code : ℕ} {t : List Char} (h : HexText code t) (rest : List Char) :
    hex4 (t ++ rest) = .ok (code, rest) := by
  obtain ⟨a, b, c, d, a', b', c', d', rfl, ha, hb, hc, hd, rfl⟩ := h
  show hex4 (a :: b :: c :: d :: rest) = _
  rw [hex4, ha, hb, hc, hd]

theorem decode_sound {code : ℕ} {rest rest' : List Char} {c : Char}
    (h : decode code rest = .ok (c, rest')) : c.toNat = code ∧ rest = rest' := by
  rw [decode] at h
  cases hcode : fromU32 code with
  | none =>
    rw [hcode] at h
    cases h
  | some ch =>
    rw [hcode] at h
    cases h
    exact ⟨fromU32_eq_some.mp hcode, rfl⟩

theorem decode_spelled {code : ℕ} {c : Char} (h : c.toNat = code) (rest : List Char) :
    decode code rest = .ok (c, rest) := by
  rw [decode, fromU32_eq_some.mpr h]

theorem eat_some {literal : String} {text rest : List Char} :
    eat literal text = some rest ↔ text = literal.toList ++ rest := by
  rw [eat]
  constructor
  · intro h
    split_ifs at h with hprefix
    cases h
    obtain ⟨tail, rfl⟩ := hprefix
    rw [← String.length_toList, List.drop_left]
  · intro h
    rw [if_pos (h ▸ List.prefix_append _ _), h, ← String.length_toList, List.drop_left]

private theorem unit_or_pair (c : Char) : ¬(0xD800 ≤ c.toNat ∧ c.toNat < 0xDC00) := by
  have hvalid : c.toNat < 0xD800 ∨ 0xDFFF < c.toNat ∧ c.toNat < 0x110000 := c.valid
  omega

theorem unicode_sound {text rest : List Char} {c : Char} (h : unicode text = .ok (c, rest)) :
    ∃ t, CharText c ('\\' :: 'u' :: t) ∧ text = t ++ rest := by
  rw [unicode] at h
  cases hfirst : hex4 text with
  | error e =>
    rw [hfirst] at h
    cases h
  | ok r =>
    obtain ⟨first, text₁⟩ := r
    obtain ⟨t, ht, rfl⟩ := hex4_sound hfirst
    rw [hfirst] at h
    simp only [bind, Except.bind] at h
    by_cases hhigh : 0xD800 ≤ first ∧ first < 0xDC00
    · rw [if_pos hhigh] at h
      cases heat : eat "\\u" text₁ with
      | none =>
        rw [heat] at h
        cases h
      | some text₂ =>
        rw [heat] at h
        dsimp only at h
        cases hsecond : hex4 text₂ with
        | error e =>
          rw [hsecond] at h
          cases h
        | ok r =>
          obtain ⟨second, text₃⟩ := r
          obtain ⟨t', ht', rfl⟩ := hex4_sound hsecond
          rw [hsecond] at h
          dsimp only at h
          by_cases hlow : 0xDC00 ≤ second ∧ second < 0xE000
          · rw [if_pos hlow] at h
            obtain ⟨hc, rfl⟩ := decode_sound h
            refine ⟨t ++ '\\' :: 'u' :: t', .pair c first second t t' ht ht' hhigh hlow hc, ?_⟩
            rw [eat_some.mp heat, List.append_assoc]
            rfl
          · rw [if_neg hlow] at h
            cases h
    · rw [if_neg hhigh] at h
      obtain ⟨hc, rfl⟩ := decode_sound h
      exact ⟨t, .unit c t (hc ▸ ht), rfl⟩

theorem unicode_unit {c : Char} {t : List Char} (h : HexText c.toNat t) (rest : List Char) :
    unicode (t ++ rest) = .ok (c, rest) := by
  rw [unicode, hex4_spelled h]
  simp only [bind, Except.bind]
  rw [if_neg (unit_or_pair c), decode_spelled rfl]

theorem unicode_pair {c : Char} {high low : ℕ} {first second : List Char}
    (hfirst : HexText high first) (hsecond : HexText low second)
    (hhigh : 0xD800 ≤ high ∧ high < 0xDC00) (hlow : 0xDC00 ≤ low ∧ low < 0xE000)
    (hc : c.toNat = 0x10000 + (high - 0xD800) * 2 ^ 10 + (low - 0xDC00)) (rest : List Char) :
    unicode (first ++ '\\' :: 'u' :: (second ++ rest)) = .ok (c, rest) := by
  have heat : eat "\\u" ('\\' :: 'u' :: (second ++ rest)) = some (second ++ rest) :=
    eat_some.mpr rfl
  rw [unicode, hex4_spelled hfirst]
  simp only [bind, Except.bind]
  rw [if_pos hhigh, heat]
  dsimp only
  rw [hex4_spelled hsecond]
  dsimp only
  rw [if_pos hlow, decode_spelled hc]

private theorem lookup_escapes {esc c : Char} (h : (esc, c) ∈ escapes) :
    esc ≠ 'u' ∧ escapes.lookup esc = some c := by
  have hall : ∀ p ∈ escapes, p.1 ≠ 'u' ∧ escapes.lookup p.1 = some p.2 :=
    List.forall_mem_cons.mpr (by simp [escapes, List.lookup_cons])
  exact hall (esc, c) h

theorem escape_sound {text rest : List Char} {c : Char} (h : escape text = .ok (c, rest)) :
    ∃ t, CharText c ('\\' :: t) ∧ text = t ++ rest := by
  cases text with
  | nil => cases h
  | cons esc text =>
    rw [escape] at h
    by_cases hu : esc = 'u'
    · rw [if_pos hu] at h
      obtain ⟨t, ht, rfl⟩ := unicode_sound h
      exact ⟨'u' :: t, ht, by rw [hu]; rfl⟩
    · rw [if_neg hu] at h
      cases hlookup : escapes.lookup esc with
      | none =>
        rw [hlookup] at h
        cases h
      | some ch =>
        rw [hlookup] at h
        cases h
        obtain ⟨l₁, l₂, hmem, -⟩ := List.lookup_eq_some_iff.mp hlookup
        exact ⟨[esc], .short esc c (hmem ▸ List.mem_append_right _ List.mem_cons_self), rfl⟩

/-- One round takes one character. -/
theorem stringRound_spelled {c : Char} {t : List Char} (h : CharText c t) (out rest : List Char) :
    stringRound (out, t ++ rest) = .ok (.inl (out ++ [c], rest)) := by
  cases h with
  | plain _ h =>
    obtain ⟨hquote, hescape, hcontrol⟩ := h
    show stringRound (out, c :: rest) = _
    rw [stringRound, if_neg hquote, if_neg hescape, if_neg (by omega)]
  | short esc _ h =>
    obtain ⟨hu, hlookup⟩ := lookup_escapes h
    have hread : escape (esc :: rest) = .ok (c, rest) := by
      rw [escape, if_neg hu, hlookup]
    show stringRound (out, '\\' :: esc :: rest) = _
    rw [stringRound, if_neg (by decide), if_pos rfl, hread]
    rfl
  | unit _ t h =>
    have hread : escape ('u' :: (t ++ rest)) = .ok (c, rest) := by
      rw [escape, if_pos rfl, unicode_unit h]
    show stringRound (out, '\\' :: 'u' :: (t ++ rest)) = _
    rw [stringRound, if_neg (by decide), if_pos rfl, hread]
    rfl
  | pair _ high low first second hfirst hsecond hhigh hlow hc =>
    have hread : escape ('u' :: (first ++ '\\' :: 'u' :: (second ++ rest))) = .ok (c, rest) := by
      rw [escape, if_pos rfl, unicode_pair hfirst hsecond hhigh hlow hc]
    have htext : '\\' :: 'u' :: (first ++ '\\' :: 'u' :: second) ++ rest =
        '\\' :: 'u' :: (first ++ '\\' :: 'u' :: (second ++ rest)) := by
      simp
    rw [htext, stringRound, if_neg (by decide), if_pos rfl, hread]
    rfl

theorem stringRound_next {out rest : List Char} {s : List Char × List Char}
    (h : stringRound (out, rest) = .ok (.inl s)) :
    ∃ c t, CharText c t ∧ rest = t ++ s.2 ∧ s.1 = out ++ [c] ∧ s.2.length < rest.length := by
  cases rest with
  | nil => cases h
  | cons c rest =>
    rw [stringRound] at h
    by_cases hquote : c = '"'
    · rw [if_pos hquote] at h
      cases h
    · rw [if_neg hquote] at h
      by_cases hescape : c = '\\'
      · rw [if_pos hescape] at h
        cases hread : escape rest with
        | error e =>
          rw [hread] at h
          cases h
        | ok r =>
          obtain ⟨ch, rest'⟩ := r
          rw [hread] at h
          cases h
          obtain ⟨t, ht, rfl⟩ := escape_sound hread
          refine ⟨ch, '\\' :: t, ht, by rw [hescape]; rfl, rfl, ?_⟩
          simp only [List.length_cons, List.length_append]
          omega
      · rw [if_neg hescape] at h
        by_cases hcontrol : c.toNat < 0x20
        · rw [if_pos hcontrol] at h
          cases h
        · rw [if_neg hcontrol] at h
          cases h
          exact ⟨c, [c], .plain c ⟨hquote, hescape, by omega⟩, rfl, rfl, by simp⟩

theorem stringRound_stop {out rest : List Char} {a : List Char × List Char}
    (h : stringRound (out, rest) = .ok (.inr a)) : rest = '"' :: a.2 ∧ a.1 = out := by
  cases rest with
  | nil => cases h
  | cons c rest =>
    rw [stringRound] at h
    by_cases hquote : c = '"'
    · rw [if_pos hquote] at h
      cases h
      exact ⟨by rw [hquote], rfl⟩
    · rw [if_neg hquote] at h
      by_cases hescape : c = '\\'
      · rw [if_pos hescape] at h
        cases hread : escape rest with
        | error e =>
          rw [hread] at h
          cases h
        | ok r =>
          rw [hread] at h
          cases h
      · rw [if_neg hescape] at h
        split_ifs at h <;> cases h

theorem stringRound_lowers : Loop.Lowers stringRound (·.2.length) := by
  intro s s' h
  obtain ⟨-, -, -, -, -, hlt⟩ := stringRound_next h
  exact hlt

theorem Body.append {s t s' t' : List Char} (h : Body s t) (h' : Body s' t') :
    Body (s ++ s') (t ++ t') := by
  induction h with
  | nil => exact h'
  | cons hc _ ih =>
    rw [List.append_assoc]
    exact .cons hc ih

theorem string_sound {text rest s : List Char} (h : string ('"' :: text) = .ok (s, rest)) :
    ∃ t, StringText s t ∧ '"' :: text = t ++ rest := by
  have hbody : ∃ body, Body s body ∧ text = body ++ '"' :: rest := by
    refine Loop.loop_keeps (I := fun st => ∃ read, Body st.1 read ∧ text = read ++ st.2)
      (Q := fun a => ∃ body, Body a.1 body ∧ text = body ++ '"' :: a.2) ?_ ?_ ?_ h
    · intro st st' ⟨read, hread, htext⟩ hnext
      obtain ⟨c, t, ht, hrest, hout, -⟩ := stringRound_next hnext
      refine ⟨read ++ t, ?_, by rw [htext, hrest, List.append_assoc]⟩
      rw [hout]
      have hone : Body [c] t := by
        have := Body.cons ht Body.nil
        rwa [List.append_nil] at this
      exact hread.append hone
    · intro st a ⟨read, hread, htext⟩ hstop
      obtain ⟨hrest, hout⟩ := stringRound_stop hstop
      exact ⟨read, hout ▸ hread, by rw [htext, hrest]⟩
    · exact ⟨[], .nil, rfl⟩
  obtain ⟨body, hbody, rfl⟩ := hbody
  exact ⟨'"' :: (body ++ ['"']), ⟨body, hbody, rfl⟩, by simp⟩

theorem string_spelled {s t : List Char} (h : StringText s t) (rest : List Char) :
    string (t ++ rest) = .ok (s, rest) := by
  obtain ⟨body, hbody, rfl⟩ := h
  have hloop (out : List Char) :
      Loop.loop stringRound (·.2.length) (out, body ++ '"' :: rest) = .ok (out ++ s, rest) := by
    induction hbody generalizing out with
    | nil =>
      rw [List.append_nil]
      exact Loop.loop_stop rfl
    | @cons c s t body hc _ ih =>
      rw [List.append_assoc, Loop.loop_next stringRound_lowers (stringRound_spelled hc out _), ih,
        List.append_assoc]
      rfl
  have htext : ('"' :: (body ++ ['"']) ++ rest).tail = body ++ '"' :: rest := by simp
  rw [string, htext]
  exact hloop []

end CydMonitor.Hooks
