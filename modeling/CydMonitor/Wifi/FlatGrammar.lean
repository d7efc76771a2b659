import CydMonitor.Wifi.FlatExact

/-!
# Where the flat reader and its grammar part

Two spellings of the same fields differ in their signs only where one of them has `-0`, so a line
is read otherwise than the grammar says exactly when it has one byte too many or `-0` in it.
-/

namespace CydMonitor.Wifi

open Text (lit byte isDigit)

/-- The minus signs in the text of a field. -/
def minuses (f : List UInt8 × Value) : ℕ :=
  f.1.count (byte '-') +
    match f.2 with
    | .str s => s.count (byte '-')
    | .int n => if n < 0 then 1 else 0
    | .bool _ | .null => 0

private theorem le_foldl_digits (digits : List UInt8) (n : ℕ) :
    n ≤ digits.foldl (fun n d => 10 * n + (d.toNat - (byte '0').toNat)) n := by
  induction digits generalizing n with
  | nil => exact Nat.le_refl n
  | cons d digits ih =>
    have h := ih (10 * n + (d.toNat - (byte '0').toNat))
    rw [List.foldl_cons]
    omega

private theorem digit_toNat {d : UInt8} (h : isDigit d = true) : 48 ≤ d.toNat ∧ d.toNat ≤ 57 := by
  rw [isDigit, Bool.and_eq_true, decide_eq_true_eq, decide_eq_true_eq, UInt8.le_iff_toNat_le,
    UInt8.le_iff_toNat_le] at h
  exact h

/-- Nothing but `0` is a canonical zero. -/
theorem Canonical.zero {digits : List UInt8} (h : Canonical digits) (hzero : ofDigits digits = 0) :
    digits = [byte '0'] := by
  obtain ⟨d, ds, rfl⟩ := List.exists_cons_of_ne_nil h.nonempty
  have hd := digit_toNat (h.digit d List.mem_cons_self)
  have h48 : (byte '0').toNat = 48 := by decide
  have hle := le_foldl_digits ds (10 * 0 + (d.toNat - (byte '0').toNat))
  have hfold : ofDigits (d :: ds) =
      ds.foldl (fun n d => 10 * n + (d.toNat - (byte '0').toNat))
        (10 * 0 + (d.toNat - (byte '0').toNat)) := rfl
  have heq : d = byte '0' := UInt8.toNat_inj.mp (by omega)
  cases ds with
  | nil => rw [heq]
  | cons e ds => exact absurd (congrArg some heq) (h.leading (by simp))

private theorem count_digits {digits : List UInt8} (h : ∀ d ∈ digits, isDigit d = true) :
    digits.count (byte '-') = 0 := by
  refine List.count_eq_zero.mpr fun hmem => ?_
  exact absurd (h _ hmem) (by decide)

private theorem count_spaces (n : ℕ) : (spaces n).count (byte '-') = 0 := by
  refine List.count_eq_zero.mpr fun hmem => ?_
  exact absurd (List.eq_of_mem_replicate hmem) (by decide)

theorem count_token {max : ℕ} {token : Token} (h : token.Legal max) :
    token.text.count (byte '-') =
      minuses ([], token.value) + if token = .int true [byte '0'] then 1 else 0 := by
  cases token with
  | str s =>
    have hquote : byte '"' ≠ byte '-' := by decide
    simp [Token.text, Token.value, minuses, List.count_append, hquote]
  | bool b => cases b <;> decide
  | null => decide
  | int negative digits =>
    have hcount := count_digits h.digit
    cases negative with
    | false => simp [Token.text, Token.value, minuses, hcount]
    | true =>
      have htext : (Token.int true digits).text.count (byte '-') = 1 := by
        simp [Token.text, hcount]
      rw [htext]
      by_cases hzero : ofDigits digits = 0
      · rw [if_pos (by rw [h.zero hzero])]
        simp [minuses, Token.value, hzero]
      · have hne : digits ≠ [byte '0'] := fun heq => hzero (by rw [heq]; decide)
        simp [minuses, Token.value, hne, Nat.pos_of_ne_zero hzero]

theorem count_member {keyMax stringMax : ℕ} {m : Member} (h : m.Legal keyMax stringMax) :
    m.text.count (byte '-') = minuses m.field + if m.MinusZero then 1 else 0 := by
  have hfield : minuses m.field = m.key.count (byte '-') + minuses ([], m.token.value) := by
    simp [minuses, Member.field]
  have hquote : (byte '"' == byte '-') = false := by decide
  have hcolon : (byte ':' == byte '-') = false := by decide
  have hlayout : m.text.count (byte '-') =
      m.key.count (byte '-') + m.token.text.count (byte '-') := by
    rw [Member.text]
    simp only [List.count_append, List.count_cons, count_spaces, hquote, hcolon]
    simp only [Bool.false_eq_true, if_false]
    omega
  rw [hlayout, count_token h.token, hfield, ← Nat.add_assoc]
  rfl

theorem count_joined {keyMax stringMax : ℕ} {ms : List Member}
    (h : ∀ m ∈ ms, m.Legal keyMax stringMax) :
    (joined ms).count (byte '-') =
      ((ms.map Member.field).map minuses).sum + ms.countP (·.MinusZero) := by
  have hcomma : (byte ',' == byte '-') = false := by decide
  induction ms with
  | nil => rfl
  | cons m ms ih =>
    obtain ⟨hm, hms⟩ := List.forall_mem_cons.mp h
    have hmember := count_member hm
    have hsum : (joined (m :: ms)).count (byte '-') =
        m.text.count (byte '-') + (joined ms).count (byte '-') := by
      by_cases hnil : ms = []
      · rw [hnil]
        rfl
      · rw [joined_cons m hnil, List.count_append, List.count_cons, hcomma]
        simp
    rw [hsum, ih hms, hmember, List.map_cons, List.map_cons, List.sum_cons, List.countP_cons]
    simp only [decide_eq_true_eq]
    omega

/-- The signs of a line, in a way that tells only `-0` from its fields. -/
theorem count_text {keyMax stringMax : ℕ} {l : Layout} (h : l.Legal keyMax stringMax) :
    l.text.count (byte '-') = (l.fields.map minuses).sum + l.members.countP (·.MinusZero) := by
  have hopen : (byte '\x7b' == byte '-') = false := by decide
  have hclose : (byte '\x7d' == byte '-') = false := by decide
  rw [Layout.text]
  simp only [List.count_append, List.count_cons, count_spaces, hopen, hclose,
    count_joined h.members, Layout.fields]
  simp

theorem Layout.Legal.mono {l : Layout} (h : l.Legal kMaxKeyBytes kMaxStringBytes) :
    l.Legal (kMaxKeyBytes + 1) (kMaxStringBytes + 1) := by
  refine ⟨fun m hm => ?_, h.count, h.keys⟩
  obtain ⟨hkey, hraw, htoken⟩ := h.members m hm
  refine ⟨Nat.le_succ_of_le hkey, hraw, ?_⟩
  cases htext : m.token with
  | str s =>
    rw [htext] at htoken
    exact ⟨Nat.le_succ_of_le htoken.1, htoken.2⟩
  | int negative digits => rwa [htext] at htoken
  | bool b => trivial
  | null => trivial

/-- Without excess, a layout keeps the grammar's bounds. -/
theorem Layout.Legal.strict {l : Layout} (h : l.Legal (kMaxKeyBytes + 1) (kMaxStringBytes + 1))
    (hno : ∀ m ∈ l.members, ¬m.Excess) : l.Legal kMaxKeyBytes kMaxStringBytes := by
  refine ⟨fun m hm => ?_, h.count, h.keys⟩
  obtain ⟨hkey, hraw, htoken⟩ := h.members m hm
  have hexcess := hno m hm
  refine ⟨?_, hraw, ?_⟩
  · have hne : m.key.length ≠ kMaxKeyBytes + 1 := fun heq => hexcess (.inl heq)
    omega
  · cases htext : m.token with
    | str s =>
      rw [htext] at htoken
      have hne : s.length ≠ kMaxStringBytes + 1 :=
        fun heq => hexcess (.inr (.inl ⟨s, htext, heq⟩))
      exact ⟨Nat.lt_succ_iff.mp (Nat.lt_of_le_of_ne htoken.1 hne), htoken.2⟩
    | int negative digits => rwa [htext] at htoken
    | bool b => trivial
    | null => trivial

/-- A spelling with excess is of no fields that a proper one has. -/
theorem not_excess {l strict : Layout} (h : l.Legal (kMaxKeyBytes + 1) (kMaxStringBytes + 1))
    (hstrict : strict.Legal kMaxKeyBytes kMaxStringBytes)
    (hzero : ∀ m ∈ strict.members, ¬m.MinusZero) (htext : strict.text = l.text)
    (hfields : strict.fields = l.fields) {m : Member} (hm : m ∈ l.members) : ¬m.Excess := by
  obtain ⟨n, hn, hfield⟩ : ∃ n ∈ strict.members, n.field = m.field := by
    have hmem : m.field ∈ strict.fields := hfields ▸ List.mem_map_of_mem hm
    exact List.mem_map.mp hmem
  have hlegal := hstrict.members n hn
  intro hexcess
  cases hexcess with
  | inl hkey =>
    have heq : n.key = m.key := congrArg Prod.fst hfield
    have hle := hlegal.key
    rw [heq] at hle
    omega
  | inr hexcess =>
    cases hexcess with
    | inl hstring =>
      obtain ⟨s, hs, hlength⟩ := hstring
      have heq : n.token.value = .str s := by
        have hvalue : n.token.value = m.token.value := congrArg Prod.snd hfield
        rw [hvalue, hs]
        rfl
      have htoken := hlegal.token
      cases hn : n.token with
      | str s' =>
        rw [hn] at heq htoken
        cases heq
        have hle := htoken.1
        omega
      | int negative digits =>
        rw [hn] at heq
        cases heq
      | bool b =>
        rw [hn] at heq
        cases heq
      | null =>
        rw [hn] at heq
        cases heq
    | inr hminus =>
      have hcount := count_text h
      have hcount' := count_text hstrict
      have hnone : strict.members.countP (·.MinusZero) = 0 := by
        refine List.countP_eq_zero.mpr fun k hk => ?_
        simpa using hzero k hk
      have hsome : 0 < l.members.countP (·.MinusZero) :=
        List.countP_pos_iff.mpr ⟨m, hm, by simpa using hminus⟩
      rw [htext, hfields, hcount, hnone] at hcount'
      omega

/-- The reader answers exactly what the grammar says of a line, unless the line has a key or a
string that is one byte too long, or `-0`. -/
theorem parseFlatObject_exact (line : List UInt8) :
    (∀ fields, parseFlatObject line = .ok fields ↔ FlatObject line fields) ↔ ¬Exceeds line := by
  constructor
  · intro h ⟨hlength, hutf8, l, htext, hlegal, m, hm, hexcess⟩
    have hread := parseFlatObject_spelled hlegal (by rwa [htext]) (by rwa [htext])
    rw [htext] at hread
    obtain ⟨-, -, strict, hsame, hfields, hstrict, hzero⟩ := (h l.fields).mp hread
    exact not_excess hlegal hstrict hzero (hsame.trans htext.symm) hfields hm hexcess
  · intro h fields
    constructor
    · intro hread
      obtain ⟨hlength, hutf8, l, htext, hfields, hlegal⟩ := parseFlatObject_sound hread
      have hno : ∀ m ∈ l.members, ¬m.Excess := fun m hm hexcess =>
        h ⟨hlength, hutf8, l, htext, hlegal, m, hm, hexcess⟩
      exact ⟨hlength, hutf8, l, htext, hfields, hlegal.strict hno, fun m hm hminus =>
        hno m hm (.inr (.inr hminus))⟩
    · intro ⟨hlength, hutf8, l, htext, hfields, hlegal, _⟩
      subst htext hfields
      exact parseFlatObject_spelled hlegal.mono hlength hutf8

/-- `-0` is read, and no line of the grammar has it. -/
theorem parseFlatObject_minus_zero :
    ¬∀ (line : List UInt8) (fields : List (List UInt8 × Value)),
      parseFlatObject line = .ok fields ↔ FlatObject line fields := by
  intro h
  let l : Layout := { members := [{ key := lit "v", token := .int true [byte '0'] }] }
  have hcanonical : Canonical [byte '0'] := by
    refine ⟨by decide, fun d hd => ?_, by decide, by decide⟩
    rw [List.mem_singleton.mp hd]
    decide
  have hraw : Raw (lit "v") := by
    intro b hb
    obtain rfl : b = byte 'v' := List.mem_singleton.mp hb
    decide
  have hlegal : l.Legal (kMaxKeyBytes + 1) (kMaxStringBytes + 1) := by
    refine ⟨fun m hm => ?_, by decide, by decide⟩
    obtain rfl := List.mem_singleton.mp hm
    exact ⟨by decide, hraw, hcanonical⟩
  have hutf8 : fromUtf8 l.text = true := fromUtf8_utf8 "\x7b\"v\":-0\x7d".toList
  have hread := parseFlatObject_spelled hlegal (by decide) hutf8
  obtain ⟨-, -, strict, htext, hfields, hstrict, hzero⟩ := (h l.text l.fields).mp hread
  exact not_excess hlegal hstrict hzero htext hfields List.mem_cons_self (.inr (.inr rfl))

end CydMonitor.Wifi
