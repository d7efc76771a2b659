import CydMonitor.Wifi.FlatLayout

/-!
# What the flat reader accepts

A line is read as the fields it spells, and every line of the grammar is read: with one byte more
than a key or a string may have, and with `-0` for an integer.
-/

namespace CydMonitor.Wifi

open Text (lit byte isDigit)

theorem member_sound {text rest : List UInt8} {f : List UInt8 × Value}
    (h : member text = some (f, rest)) :
    ∃ m : Member, text = m.text ++ rest ∧ m.field = f ∧
      m.Legal (kMaxKeyBytes + 1) (kMaxStringBytes + 1) := by
  rw [member] at h
  obtain ⟨⟨key, text₁⟩, hkey, h⟩ := Option.bind_eq_some_iff.mp h
  obtain ⟨htext, hlength, hraw⟩ := string_sound hkey
  obtain ⟨lead, hlead⟩ := exists_spaces text
  obtain ⟨beforeColon, hbefore⟩ := exists_spaces text₁
  dsimp only at h
  cases hcolon : skipWs text₁ with
  | nil =>
    rw [hcolon] at h
    cases h
  | cons b text₂ =>
    rw [hcolon] at h hbefore
    by_cases hb : b = byte ':'
    · simp only [hb, ne_eq, not_true_eq_false, if_false] at h
      obtain ⟨⟨v, text₃⟩, hvalue, h⟩ := Option.bind_eq_some_iff.mp h
      obtain ⟨token, htoken, hlegal, hv⟩ := value_sound hvalue
      obtain ⟨afterColon, hafter⟩ := exists_spaces text₂
      obtain ⟨trail, htrail⟩ := exists_spaces text₃
      cases h
      refine ⟨{ lead, key, beforeColon, afterColon, token, trail }, ?_, congrArg _ hv,
        ⟨hlength, hraw, hlegal⟩⟩
      rw [hlead, htext, hbefore, hb, hafter, htoken, Member.text]
      nth_rewrite 1 [htrail]
      simp only [List.append_assoc, List.cons_append]
    · simp only [hb, ne_eq, not_false_eq_true, if_true] at h
      cases h

theorem joined_cons (m : Member) {ms : List Member} (h : ms ≠ []) :
    joined (m :: ms) = m.text ++ byte ',' :: joined ms := by
  cases ms with
  | nil => exact absurd rfl h
  | cons n ms => rfl

theorem members_sound {room : ℕ} {seen fields : List (List UInt8 × Value)}
    {text rest : List UInt8} (h : members room seen text = some (fields, rest))
    (hseen : (seen.map Prod.fst).Nodup) :
    ∃ ms : List Member, ms ≠ [] ∧ text = joined ms ++ byte '\x7d' :: rest ∧
      fields = seen ++ ms.map Member.field ∧ ms.length ≤ room ∧
      (∀ m ∈ ms, m.Legal (kMaxKeyBytes + 1) (kMaxStringBytes + 1)) ∧
      (fields.map Prod.fst).Nodup := by
  induction room generalizing seen text with
  | zero => cases h
  | succ room ih =>
    rw [members] at h
    obtain ⟨⟨f, text₁⟩, hmember, h⟩ := Option.bind_eq_some_iff.mp h
    obtain ⟨m, htext, hfield, hlegal⟩ := member_sound hmember
    dsimp only at h
    by_cases hdup : f.1 ∈ seen.map Prod.fst
    · rw [if_pos hdup] at h
      cases h
    · rw [if_neg hdup] at h
      have hnodup : ((seen ++ [f]).map Prod.fst).Nodup := by
        rw [List.map_append, List.nodup_append]
        refine ⟨hseen, by simp, fun a ha b hb heq => hdup ?_⟩
        obtain rfl : b = f.1 := by simpa using hb
        exact heq ▸ ha
      cases text₁ with
      | nil => cases h
      | cons b text₂ =>
        dsimp only at h
        by_cases hcomma : b = byte ','
        · rw [if_pos hcomma] at h
          obtain ⟨ms, hne, hms, hfields, hcount, hall, hkeys⟩ := ih h hnodup
          refine ⟨m :: ms, by simp, ?_, ?_, by simpa using hcount, ?_, hkeys⟩
          · rw [htext, hcomma, hms, joined_cons m hne, List.append_assoc, List.cons_append]
          · rw [hfields, List.map_cons, hfield, List.append_assoc, List.singleton_append]
          · exact List.forall_mem_cons.mpr ⟨hlegal, hall⟩
        · rw [if_neg hcomma] at h
          by_cases hbrace : b = byte '\x7d'
          · rw [if_pos hbrace] at h
            cases h
            refine ⟨[m], by simp, by rw [htext, hbrace]; rfl, by simp [hfield], by simp,
              by simpa using hlegal, hnodup⟩
          · rw [if_neg hbrace] at h
            cases h

theorem object_sound {text rest : List UInt8} {fields : List (List UInt8 × Value)}
    (h : object text = some (fields, rest)) :
    ∃ lead inner ms, text = spaces lead ++ byte '\x7b' :: (spaces inner ++ (joined ms ++
        byte '\x7d' :: rest)) ∧ fields = ms.map Member.field ∧ ms.length ≤ kMaxFields ∧
      (∀ m ∈ ms, m.Legal (kMaxKeyBytes + 1) (kMaxStringBytes + 1)) ∧
      (fields.map Prod.fst).Nodup := by
  obtain ⟨lead, hlead⟩ := exists_spaces text
  rw [object] at h
  cases hopen : skipWs text with
  | nil =>
    rw [hopen] at h
    cases h
  | cons b text₁ =>
    rw [hopen] at h hlead
    dsimp only at h
    by_cases hb : b = byte '\x7b'
    · rw [if_neg (by simpa using hb)] at h
      obtain ⟨inner, hinner⟩ := exists_spaces text₁
      cases hfirst : skipWs text₁ with
      | nil =>
        rw [hfirst] at h
        cases h
      | cons c text₂ =>
        rw [hfirst] at h hinner
        dsimp only at h
        by_cases hc : c = byte '\x7d'
        · rw [if_pos hc] at h
          cases h
          refine ⟨lead, inner, [], ?_, rfl, Nat.zero_le _, by simp, List.nodup_nil⟩
          rw [hlead, hb, hinner, hc]
          rfl
        · rw [if_neg hc] at h
          obtain ⟨ms, -, htext, hfields, hcount, hall, hkeys⟩ := members_sound h List.nodup_nil
          exact ⟨lead, inner, ms, by rw [hlead, hb, hinner, htext], hfields, hcount, hall, hkeys⟩
    · rw [if_pos hb] at h
      cases h

theorem map_key (ms : List Member) : (ms.map Member.field).map Prod.fst = ms.map (·.key) := by
  rw [List.map_map]
  rfl

/-- What is read is what the line spells, up to one byte too many and `-0`. -/
theorem parseFlatObject_sound {line : List UInt8} {fields : List (List UInt8 × Value)}
    (h : parseFlatObject line = .ok fields) :
    line.length ≤ kMaxLineBytes ∧ fromUtf8 line = true ∧
      ∃ l : Layout, l.text = line ∧ l.fields = fields ∧
        l.Legal (kMaxKeyBytes + 1) (kMaxStringBytes + 1) := by
  rw [parseFlatObject] at h
  by_cases hlong : line.length > kMaxLineBytes
  · rw [if_pos hlong] at h
    cases h
  · rw [if_neg hlong] at h
    cases hutf8 : fromUtf8 line with
    | false =>
      rw [hutf8] at h
      cases h
    | true =>
      rw [hutf8] at h
      cases hobject : object line with
      | none =>
        rw [hobject] at h
        cases h
      | some read =>
        obtain ⟨read, rest⟩ := read
        rw [hobject] at h
        by_cases hrest : skipWs rest = []
        · have hfields : read = fields := by simpa [hrest] using h
          obtain ⟨lead, inner, ms, htext, hread, hcount, hall, hkeys⟩ := object_sound hobject
          obtain ⟨trail, htrail⟩ := exists_spaces rest
          rw [hrest, List.append_nil] at htrail
          refine ⟨by omega, rfl, { lead, inner, members := ms, trail }, ?_,
            hread.symm.trans hfields,
            hall, hcount, ?_⟩
          · rw [htext, htrail]
            rfl
          · rw [← map_key, ← hread]
            exact hkeys
        · simp [hrest] at h

theorem number_spelled {negative : Bool} {digits : List UInt8} (h : Canonical digits)
    {rest : List UInt8} (hrest : NoDigit rest) {b : UInt8} {text : List UInt8}
    (htext : (Token.int negative digits).text = b :: text) :
    (isDigit b = true ∨ b = byte '-') ∧
      number b (text ++ rest) = some
        (if negative then -(ofDigits digits : Int) else ofDigits digits, rest) := by
  have hcanonical : ¬(digits = [] ∨ digits.length > 15 ∨
      (digits.length > 1 ∧ digits.head? = some (byte '0'))) := by
    intro hbad
    cases hbad with
    | inl hnil => exact h.nonempty hnil
    | inr hbad =>
      cases hbad with
      | inl hlong => exact absurd h.short (by omega)
      | inr hzero => exact h.leading hzero.1 hzero.2
  have hnominus : digits.dropWhile (· == byte '-') = digits := by
    cases digits with
    | nil => rfl
    | cons d ds =>
      refine List.dropWhile_cons_of_neg fun heq => ?_
      have hd := h.digit d List.mem_cons_self
      rw [beq_iff_eq.mp heq] at hd
      exact absurd hd (by decide)
  cases negative with
  | true =>
    obtain ⟨rfl, rfl⟩ : byte '-' = b ∧ digits = text := List.cons.inj htext
    obtain ⟨htake, hdrop⟩ := span_digits h.digit hrest
    refine ⟨.inr rfl, ?_⟩
    rw [number, htake, hdrop, List.dropWhile_cons_of_pos (by simp), hnominus, if_neg hcanonical,
      if_pos rfl, if_pos rfl]
  | false =>
    obtain rfl : digits = b :: text := htext
    have hb := h.digit b List.mem_cons_self
    obtain ⟨htake, hdrop⟩ := span_digits
      (fun d hd => h.digit d (List.mem_cons_of_mem b hd)) hrest
    have hminus : b ≠ byte '-' := fun heq => absurd (heq ▸ hb) (by decide)
    refine ⟨.inl hb, ?_⟩
    rw [number, htake, hdrop, hnominus, if_neg hcanonical, if_neg hminus]
    rfl

theorem value_spelled {token : Token} (h : token.Legal (kMaxStringBytes + 1)) {rest : List UInt8}
    (hrest : NoDigit rest) : value (token.text ++ rest) = some (token.value, rest) := by
  cases token with
  | str s => exact value_text (v := .str s) h hrest
  | bool b =>
    cases b with
    | true => exact value_text (v := .bool true) trivial hrest
    | false => exact value_text (v := .bool false) trivial hrest
  | null => exact value_text (v := .null) trivial hrest
  | int negative digits =>
    obtain ⟨b, text, htext⟩ : ∃ b text, (Token.int negative digits).text = b :: text := by
      refine List.exists_cons_of_ne_nil ?_
      simp [Token.text, h.nonempty]
    obtain ⟨hb, hnumber⟩ := number_spelled h hrest htext
    have hother {w : List UInt8} {c : UInt8} {cs : List UInt8} (hw : w = c :: cs)
        (hc : isDigit c = false ∧ c ≠ byte '-') : ¬w <+: b :: (text ++ rest) := by
      intro hprefix
      rw [hw] at hprefix
      have hcb := prefix_head hprefix
      rw [← hcb, hc.1] at hb
      exact hb.elim (by simp) hc.2
    have hquote : b ≠ byte '"' := by
      intro heq
      rw [heq] at hb
      exact absurd hb (by decide)
    have htrue : ¬lit "true" <+: b :: (text ++ rest) := hother rfl (by decide)
    have hfalse : ¬lit "false" <+: b :: (text ++ rest) := hother rfl (by decide)
    have hnull : ¬lit "null" <+: b :: (text ++ rest) := hother rfl (by decide)
    rw [htext, List.cons_append, value, if_neg hquote, if_neg htrue, if_neg hfalse, if_neg hnull,
      if_pos hb, hnumber]
    rfl

/-- The first byte of a legal token is no space. -/
private theorem skipWs_token {token : Token} (h : token.Legal (kMaxStringBytes + 1)) (n : ℕ)
    (rest : List UInt8) : skipWs (spaces n ++ (token.text ++ rest)) = token.text ++ rest := by
  obtain ⟨b, text, htext, hb⟩ : ∃ b text, token.text = b :: text ∧ b ≠ byte ' ' := by
    cases token with
    | str s => exact ⟨_, _, rfl, by decide⟩
    | bool b => cases b <;> exact ⟨_, _, rfl, by decide⟩
    | null => exact ⟨_, _, rfl, by decide⟩
    | int negative digits =>
      cases negative with
      | true => exact ⟨_, _, rfl, by decide⟩
      | false =>
        obtain ⟨d, ds, hds⟩ := List.exists_cons_of_ne_nil h.nonempty
        refine ⟨d, ds, hds, fun heq => ?_⟩
        have hd := h.digit d (hds ▸ List.mem_cons_self)
        rw [heq] at hd
        exact absurd hd (by decide)
  rw [htext]
  exact skipWs_spaces hb n _

/-- The spaces behind a token, up to a comma or a brace. -/
private theorem noDigit_spaces (n : ℕ) {b : UInt8} (hb : isDigit b = false) (rest : List UInt8) :
    NoDigit (spaces n ++ b :: rest) := by
  intro c hc
  cases n with
  | zero =>
    obtain rfl := Option.some.inj hc
    exact hb
  | succ n =>
    obtain rfl := Option.some.inj hc
    decide

theorem member_spelled {m : Member} (h : m.Legal (kMaxKeyBytes + 1) (kMaxStringBytes + 1))
    {b : UInt8} (hb : isDigit b = false ∧ b ≠ byte ' ') (rest : List UInt8) :
    member (m.text ++ b :: rest) = some (m.field, b :: rest) := by
  have htext : m.text ++ b :: rest = spaces m.lead ++ byte '"' :: (m.key ++ byte '"' ::
      (spaces m.beforeColon ++ byte ':' :: (spaces m.afterColon ++ (m.token.text ++
        (spaces m.trail ++ b :: rest))))) := by
    simp [Member.text]
  have hvalue := value_spelled h.token (noDigit_spaces m.trail hb.1 rest)
  rw [htext, member, skipWs_spaces (by decide), string_plain ⟨h.key, h.raw⟩]
  dsimp only [bind, Option.bind]
  rw [skipWs_spaces (by decide)]
  simp only [ne_eq, not_true_eq_false, if_false]
  rw [skipWs_token h.token, hvalue]
  show some (m.field, skipWs (spaces m.trail ++ b :: rest)) = _
  rw [skipWs_spaces hb.2]

theorem members_spelled {ms : List Member} (hne : ms ≠ [])
    (hall : ∀ m ∈ ms, m.Legal (kMaxKeyBytes + 1) (kMaxStringBytes + 1))
    {seen : List (List UInt8 × Value)}
    (hkeys : (seen.map Prod.fst ++ ms.map (·.key)).Nodup) {room : ℕ} (hroom : ms.length ≤ room)
    (rest : List UInt8) :
    members room seen (joined ms ++ byte '\x7d' :: rest) =
      some (seen ++ ms.map Member.field, rest) := by
  induction ms generalizing seen room with
  | nil => exact absurd rfl hne
  | cons m ms ih =>
    obtain ⟨hm, hms⟩ := List.forall_mem_cons.mp hall
    obtain ⟨room, rfl⟩ : ∃ k, room = k + 1 := by
      rw [List.length_cons] at hroom
      exact ⟨room - 1, by omega⟩
    have hnew : m.field.1 ∉ seen.map Prod.fst := fun hmem =>
      (List.nodup_append.mp hkeys).2.2 _ hmem _ List.mem_cons_self rfl
    by_cases hlast : ms = []
    · have htext : joined (m :: ms) ++ byte '\x7d' :: rest = m.text ++ byte '\x7d' :: rest := by
        rw [hlast, joined]
      rw [htext, members, member_spelled hm (by decide)]
      show (if m.field.1 ∈ seen.map Prod.fst then none else _) = _
      rw [if_neg hnew, if_neg (by decide), if_pos rfl, hlast]
      rfl
    · have htext : joined (m :: ms) ++ byte '\x7d' :: rest =
          m.text ++ byte ',' :: (joined ms ++ byte '\x7d' :: rest) := by
        rw [joined_cons m hlast, List.append_assoc, List.cons_append]
      have hkeys' : ((seen ++ [m.field]).map Prod.fst ++ ms.map (·.key)).Nodup := by
        rw [List.map_append, List.append_assoc]
        exact hkeys
      rw [htext, members, member_spelled hm (by decide)]
      show (if m.field.1 ∈ seen.map Prod.fst then none else _) = _
      rw [if_neg hnew, if_pos rfl, ih hlast hms hkeys' (by simpa using hroom), List.map_cons,
        List.append_assoc, List.singleton_append]

theorem members_skipWs (room : ℕ) (seen : List (List UInt8 × Value)) (text : List UInt8) :
    members room seen (skipWs text) = members room seen text := by
  cases room with
  | zero => rfl
  | succ room => rw [members, members, member, member, skipWs_skipWs]

theorem object_spelled {l : Layout} (h : l.Legal (kMaxKeyBytes + 1) (kMaxStringBytes + 1)) :
    object l.text = some (l.fields, spaces l.trail) := by
  rw [Layout.text, object, skipWs_spaces (by decide)]
  simp only [ne_eq, not_true_eq_false, if_false]
  by_cases hnil : l.members = []
  · rw [hnil, joined, List.nil_append, skipWs_spaces (by decide)]
    simp [Layout.fields, hnil]
  · have hkeys : ((([] : List (List UInt8 × Value)).map Prod.fst) ++
        l.members.map (·.key)).Nodup := by simpa using h.keys
    have hmembers := members_spelled hnil h.members hkeys h.count (spaces l.trail)
    obtain ⟨m, ms, hcons⟩ := List.exists_cons_of_ne_nil hnil
    obtain ⟨rest, htext⟩ : ∃ rest, joined l.members ++ byte '\x7d' :: spaces l.trail =
        spaces m.lead ++ byte '"' :: rest := by
      rw [hcons]
      by_cases hlast : ms = []
      · rw [hlast, joined, Member.text, List.append_assoc]
        exact ⟨_, rfl⟩
      · rw [joined_cons m hlast, Member.text, List.append_assoc, List.append_assoc]
        exact ⟨_, rfl⟩
    have hskip : skipWs (spaces l.inner ++ (joined l.members ++ byte '\x7d' :: spaces l.trail)) =
        skipWs (joined l.members ++ byte '\x7d' :: spaces l.trail) := by
      rw [skipWs, List.dropWhile_append_of_pos (by simp [spaces])]
      rfl
    have hfirst := hskip.trans (htext ▸ skipWs_spaces (by decide) m.lead rest)
    rw [hfirst]
    show (if byte '"' = byte '\x7d' then _ else members kMaxFields [] (byte '"' :: rest)) = _
    rw [if_neg (by decide), ← hfirst, hskip, members_skipWs, hmembers]
    rfl

theorem parseFlatObject_spelled {l : Layout}
    (h : l.Legal (kMaxKeyBytes + 1) (kMaxStringBytes + 1))
    (hlength : l.text.length ≤ kMaxLineBytes) (hutf8 : fromUtf8 l.text = true) :
    parseFlatObject l.text = .ok l.fields := by
  rw [parseFlatObject, if_neg (by omega), hutf8, object_spelled h]
  show (if skipWs (spaces l.trail) = [] then _ else _) = _
  rw [if_pos (skipWs_all _)]

end CydMonitor.Wifi
