import CydMonitor.Metrics.Battery

/-!
# What the battery reader does not do

From any state the reader stays within its input, and it stops at a failed check only where the
sum for a pair of `\u` escapes overflows.
-/

namespace CydMonitor.Battery

open Outcome
open Text (byte isDigit fromU32)

/-- The units of an escape, as the reader takes them. -/
structure Escape.Read (e : Escape) (unit : ℕ) (low : Option ℕ) : Prop where
  first : fromStrRadix e.first = some unit
  second : e.second.bind fromStrRadix = low
  both : e.second.isSome = low.isSome
  unit_lt : unit < 2 ^ 16
  low_lt : ∀ n ∈ low, isHigh unit = true ∧ n < 2 ^ 16

/-- A second unit below the low surrogates. -/
def Escape.Overflows (e : Escape) : Prop := ∃ n ∈ e.second.bind fromStrRadix, n < 0xDC00

theorem addU32_eq {a b : ℕ} (h : a + b < 2 ^ 32) : addU32 a b = some (a + b) := if_pos h

theorem addU32_none {a b : ℕ} (h : ¬a + b < 2 ^ 32) : addU32 a b = none := if_neg h

theorem wrappingSub_eq {a b : ℕ} (h : b ≤ a) (ha : a < 2 ^ 32) : wrappingSub a b = a - b := by
  rw [wrappingSub]
  omega

theorem wrappingSub_wrap {a b : ℕ} (h : a < b) :
    wrappingSub a b = a + 2 ^ 32 - b := by
  rw [wrappingSub]
  omega

theorem high_lt {unit : ℕ} (h : isHigh unit = true) :
    0x10000 + (unit - 0xD800) * 2 ^ 10 ≤ 0x10FC00 := by
  simp only [isHigh, Bool.and_eq_true, decide_eq_true_eq] at h
  omega

/-- The two sums of a pair. -/
theorem decoded_some (unit low : ℕ) :
    decoded unit (some low) = (addU32 0x10000 ((unit - 0xD800) * 2 ^ 10)).bind fun code =>
      (addU32 code (wrappingSub low 0xDC00)).bind fun code =>
        some ((fromU32 code).getD replacement) :=
  rfl

theorem decoded_pair {unit low : ℕ} (hhigh : isHigh unit = true) (hlow : 0xDC00 ≤ low)
    (hlt : low < 2 ^ 16) :
    decoded unit (some low) = some
      ((fromU32 (0x10000 + (unit - 0xD800) * 2 ^ 10 + (low - 0xDC00))).getD replacement) := by
  have hle := high_lt hhigh
  have hfirst : 0x10000 + (unit - 0xD800) * 2 ^ 10 < 2 ^ 32 := by omega
  have hsecond : 0x10000 + (unit - 0xD800) * 2 ^ 10 + (low - 0xDC00) < 2 ^ 32 := by omega
  have hsub : wrappingSub low 0xDC00 = low - 0xDC00 := wrappingSub_eq hlow (by omega)
  rw [decoded_some, addU32_eq hfirst, Option.bind_some, hsub, addU32_eq hsecond,
    Option.bind_some]

theorem decoded_overflow {unit low : ℕ} (hhigh : isHigh unit = true) (hlow : low < 0xDC00) :
    decoded unit (some low) = none := by
  have hle := high_lt hhigh
  have hfirst : 0x10000 + (unit - 0xD800) * 2 ^ 10 < 2 ^ 32 := by omega
  have hsecond : ¬0x10000 + (unit - 0xD800) * 2 ^ 10 + (low + 2 ^ 32 - 0xDC00) < 2 ^ 32 := by
    omega
  have hsub : wrappingSub low 0xDC00 = low + 2 ^ 32 - 0xDC00 := wrappingSub_wrap hlow
  rw [decoded_some, addU32_eq hfirst, Option.bind_some, hsub, addU32_none hsecond,
    Option.bind_none]

theorem decoded_eq_none {unit : ℕ} {low : Option ℕ}
    (hlow : ∀ n ∈ low, isHigh unit = true ∧ n < 2 ^ 16) :
    decoded unit low = none ↔ ∃ n ∈ low, n < 0xDC00 := by
  cases low with
  | none => simp [decoded]
  | some n =>
    obtain ⟨hhigh, hn⟩ := hlow n rfl
    by_cases hsmall : n < 0xDC00
    · simp [decoded_overflow hhigh hsmall, hsmall]
    · simp [decoded_pair hhigh (Nat.le_of_not_lt hsmall) hn, hsmall]

variable {input : List UInt8}

structure Standing (input : List UInt8) (r : Reader) : Prop where
  pos : r.pos ≤ input.length
  nodes : r.nodes ≤ maxJsonNodes
  met : ∀ e ∈ r.met, (∃ unit low, e.Read unit low) ∧ ¬e.Overflows

/-- How the reader may stop. -/
def Stopped (e : Fail) : Prop :=
  (∀ esc ∈ e.2.met, ∃ unit low, esc.Read unit low) ∧
    match e.1 with
    | .refused => ∀ esc ∈ e.2.met, ¬esc.Overflows
    | .panic _ => ∃ esc ∈ e.2.met, esc.Overflows

/-- The reader has not gone back. -/
def Onward (input : List UInt8) (r r' : Reader) : Prop := Standing input r' ∧ r.pos ≤ r'.pos

theorem ends_refuse {α : Type} {P : α → Prop} {r : Reader} (h : Standing input r) :
    Ends (refuse r) P Stopped :=
  ⟨fun e he => (h.met e he).1, fun e he => (h.met e he).2⟩

section

variable (hlen : input.length ≤ maxProfilerBytes)

include hlen

theorem ends_advance {r : Reader} (h : Standing input r) {n : ℕ} (hn : r.pos + n ≤ input.length) :
    Ends (r.advance n) (fun r' => Standing input r' ∧ r'.pos = r.pos + n) Stopped := by
  have hmax : maxProfilerBytes < 2 ^ 64 := by decide
  rw [Reader.advance, addUsize, if_pos (by omega)]
  exact ⟨⟨hn, h.nodes, h.met⟩, rfl⟩

theorem ends_skipSpace {r : Reader} (h : Standing input r) :
    Ends (skipSpace input r) (Onward input r) Stopped := by
  have hle := (List.takeWhile_prefix (p := isSpace) (l := input.drop r.pos)).length_le
  have hpos := h.pos
  rw [List.length_drop] at hle
  exact (ends_advance hlen h (by omega)).mono fun r' hr' => ⟨hr'.1, by omega⟩

theorem ends_step {r : Reader} (h : Standing input r) {b : UInt8} (hb : input[r.pos]? = some b) :
    Ends (r.advance 1) (fun r' => Standing input r' ∧ r'.pos = r.pos + 1) Stopped := by
  obtain ⟨hlt, -⟩ := List.getElem?_eq_some_iff.mp hb
  exact ends_advance hlen h hlt

theorem ends_eat {r : Reader} (h : Standing input r) (b : UInt8) :
    Ends (eat input b r)
      (fun a => Onward input r a.2 ∧ (a.1 = true → r.pos < a.2.pos)) Stopped := by
  refine (ends_skipSpace hlen h).bind fun r₁ ⟨hr₁, hle⟩ => .ite (fun hb => ?_) fun _ => ?_
  · refine (ends_step hlen hr₁ hb).bind fun r₂ ⟨hr₂, hpos⟩ => ?_
    have hlt : r.pos < r₂.pos := by omega
    exact ⟨⟨hr₂, Nat.le_of_lt hlt⟩, fun _ => hlt⟩
  · exact ⟨⟨hr₁, hle⟩, fun hfalse => by cases hfalse⟩

omit hlen in
theorem ends_literal {F : Type} {word : String} {v : Value F} {r : Reader} (h : Standing input r) :
    Ends (literal input word v r) (fun a => Onward input r a.2) Stopped := by
  refine .ite (fun hword => ?_) fun _ => ends_refuse h
  obtain ⟨-, hrange⟩ := hword
  rw [getRange] at hrange
  split_ifs at hrange with hfits
  exact ⟨⟨hfits.2, h.nodes, h.met⟩, Nat.le_add_right _ _⟩

theorem ends_number {F : Type} {f64 : F64 F} {r : Reader} (h : Standing input r) :
    Ends (number input f64 r) (fun a => Onward input r a.2) Stopped := by
  have hle := (List.takeWhile_prefix (p := isNumberByte) (l := input.drop r.pos)).length_le
  have hpos := h.pos
  rw [List.length_drop] at hle
  refine (ends_advance hlen h (by omega)).bind fun r₁ ⟨hr₁, hat⟩ => ?_
  have hrange : getRange input r.pos r₁.pos =
      some ((input.drop r.pos).take (r₁.pos - r.pos)) := if_pos ⟨by omega, hr₁.pos⟩
  rw [hrange]
  dsimp only
  cases f64.parse ((input.drop r.pos).take (r₁.pos - r.pos)) with
  | none => exact ends_refuse hr₁
  | some n =>
    have hle : r.pos ≤ r₁.pos := by omega
    exact .ite (fun _ => ⟨hr₁, hle⟩) fun _ => ends_refuse hr₁

omit hlen in
private theorem hexDigits_lt {digits : List UInt8} {n k : ℕ} (h : hexDigits digits = some n)
    (hk : digits.length ≤ k) : n < 16 ^ k := by
  have hfold (digits : List UInt8) : ∀ (m n : ℕ),
      digits.foldlM (fun n d => (hexDigit d).map (16 * n + ·)) m = some n →
      n < 16 ^ digits.length * (m + 1) := by
    induction digits with
    | nil =>
      intro m n h
      cases h
      simp
    | cons d digits ih =>
      intro m n h
      rw [List.foldlM_cons] at h
      obtain ⟨next, hnext, h⟩ := Option.bind_eq_some_iff.mp h
      obtain ⟨v, hv, rfl⟩ := Option.map_eq_some_iff.mp hnext
      have hdigit : v < 16 := by
        have htop := d.toNat_lt
        rw [hexDigit] at hv
        simp only [isDigit, Bool.and_eq_true, decide_eq_true_eq, UInt8.le_iff_toNat_le] at hv
        have h0 : (byte '0').toNat = 48 := by decide
        have h9 : (byte '9').toNat = 57 := by decide
        have ha : (byte 'a').toNat = 97 := by decide
        have hf : (byte 'f').toNat = 102 := by decide
        have hA : (byte 'A').toNat = 65 := by decide
        have hF : (byte 'F').toNat = 70 := by decide
        split_ifs at hv <;> cases hv <;> omega
      have hlt := ih _ _ h
      rw [List.length_cons, Nat.pow_succ, Nat.mul_assoc]
      refine Nat.lt_of_lt_of_le hlt (Nat.mul_le_mul_left _ ?_)
      omega
  have hlt := hfold digits 0 n h
  rw [Nat.zero_add, Nat.mul_one] at hlt
  exact Nat.lt_of_lt_of_le hlt (Nat.pow_le_pow_right (by decide) hk)

omit hlen in
private theorem fromStrRadix_lt {text : List UInt8} {n : ℕ} (h : fromStrRadix text = some n)
    (htext : text.length = 4) : n < 2 ^ 16 := by
  rw [fromStrRadix] at h
  split_ifs at h with hplus
  · exact hexDigits_lt (k := 4) h (by simp [htext])
  · exact hexDigits_lt (k := 4) h (by omega)

omit hlen in
theorem ends_hex4 {r : Reader} (h : Standing input r) :
    Ends (hex4 input r)
      (fun a => Onward input r a.2 ∧ fromStrRadix a.1.2 = some a.1.1 ∧ a.1.1 < 2 ^ 16) Stopped := by
  refine .ite (fun _ => ?_) fun _ => ends_refuse h
  cases hrange : getRange input r.pos (r.pos + 4) with
  | none => exact ends_refuse h
  | some digits =>
    rw [getRange] at hrange
    split_ifs at hrange with hfits
    have hlength : digits.length = 4 := by
      rw [← Option.some.inj hrange, List.length_take, List.length_drop]
      omega
    dsimp only
    cases hunit : fromStrRadix digits with
    | none => exact ends_refuse h
    | some unit =>
      exact ⟨⟨⟨hfits.2, h.nodes, h.met⟩, Nat.le_add_right _ _⟩, hunit,
        fromStrRadix_lt hunit hlength⟩

theorem ends_secondUnit {r : Reader} (h : Standing input r) (unit : ℕ) :
    Ends (secondUnit input unit r)
      (fun a => Onward input r a.2 ∧ ∀ s ∈ a.1, isHigh unit = true ∧
        fromStrRadix s.2 = some s.1 ∧ s.1 < 2 ^ 16) Stopped := by
  have hpos := h.pos
  have hmax : maxProfilerBytes < 2 ^ 63 := by decide
  have hnone : Onward input r r ∧ ∀ s ∈ (none : Option (ℕ × List UInt8)), isHigh unit = true ∧
      fromStrRadix s.2 = some s.1 ∧ s.1 < 2 ^ 16 :=
    ⟨⟨h, Nat.le_refl _⟩, fun _ hs => by cases hs⟩
  refine .ite (fun hhigh => ?_) fun _ => hnone
  rw [addUsize, if_pos (by omega)]
  refine .ite (fun hrange => ?_) fun _ => hnone
  have hfits : r.pos + 2 ≤ input.length := by
    rw [getRange] at hrange
    split_ifs at hrange with hfits
    exact hfits.2
  refine (ends_advance hlen h hfits).bind fun r₁ ⟨hr₁, hat⟩ => ?_
  refine (ends_hex4 hr₁).bind fun a ⟨⟨hr₂, hle⟩, hlow, hlt⟩ => ?_
  have honward : r.pos ≤ a.2.pos := by omega
  refine ⟨⟨hr₂, honward⟩, fun s hs => ?_⟩
  obtain rfl := Option.some.inj hs
  exact ⟨hhigh, hlow, hlt⟩

theorem ends_unicode {r : Reader} (h : Standing input r) :
    Ends (unicode input r) (fun a => Onward input r a.2) Stopped := by
  refine (ends_hex4 h).bind fun ⟨⟨unit, first⟩, r₁⟩ ⟨⟨hr₁, hle₁⟩, hunit, hlt⟩ => ?_
  refine (ends_secondUnit hlen hr₁ unit).bind fun ⟨second, r₂⟩ ⟨⟨hr₂, hle₂⟩, hsecond⟩ => ?_
  let e : Escape := { first, second := second.map (·.2) }
  have hread : e.Read unit (second.map (·.1)) := by
    refine ⟨hunit, ?_, ?_, hlt, ?_⟩
    · cases second with
      | none => rfl
      | some s => exact (hsecond s rfl).2.1
    · cases second <;> rfl
    · intro n hn
      obtain ⟨s, hs, rfl⟩ := Option.map_eq_some_iff.mp hn
      exact ⟨(hsecond s hs).1, (hsecond s hs).2.2⟩
  have hall : ∀ esc ∈ r₂.met ++ [e], ∃ unit low, esc.Read unit low := by
    intro esc hesc
    cases List.mem_append.mp hesc with
    | inl hold => exact (hr₂.met esc hold).1
    | inr hnew => exact List.mem_singleton.mp hnew ▸ ⟨unit, _, hread⟩
  have hoverflow : decoded unit (second.map (·.1)) = none ↔ e.Overflows := by
    rw [decoded_eq_none hread.low_lt, Escape.Overflows, hread.second]
  dsimp only
  cases hdecoded : decoded unit (second.map (·.1)) with
  | none =>
    exact ⟨hall, e, List.mem_append_right _ List.mem_cons_self, hoverflow.mp hdecoded⟩
  | some ch =>
    refine ⟨⟨hr₂.pos, hr₂.nodes, fun esc hesc => ⟨hall esc hesc, ?_⟩⟩, hle₁.trans hle₂⟩
    cases List.mem_append.mp hesc with
    | inl hold => exact (hr₂.met esc hold).2
    | inr hnew =>
      intro hover
      rw [List.mem_singleton.mp hnew, ← hoverflow, hdecoded] at hover
      cases hover

theorem ends_escape {r : Reader} (h : Standing input r) :
    Ends (escape input r) (fun a => Onward input r a.2) Stopped := by
  rw [escape]
  cases hbyte : input[r.pos]? with
  | none => exact ends_refuse h
  | some esc =>
    refine (ends_step hlen h hbyte).bind fun r₁ ⟨hr₁, hat⟩ => ?_
    have hle : r.pos ≤ r₁.pos := by omega
    refine .ite (fun _ => ?_) fun _ => ?_
    · exact (ends_unicode hlen hr₁).mono fun a ha => ⟨ha.1, hle.trans ha.2⟩
    · cases shortEscapes.lookup esc with
      | none => exact ends_refuse hr₁
      | some ch => exact ⟨hr₁, hle⟩

theorem ends_stringRound {start : ℕ} (s : List UInt8 × Reader)
    (h : Standing input s.2 ∧ start ≤ s.2.pos) :
    Ends (stringRound input s)
      (Sum.elim
        (fun s' => (Standing input s'.2 ∧ start ≤ s'.2.pos) ∧ s'.2.left input < s.2.left input)
        fun a => Standing input a.2 ∧ start ≤ a.2.pos) Stopped := by
  obtain ⟨bytes, r⟩ := s
  obtain ⟨hr, hstart⟩ := h
  rw [stringRound]
  dsimp only at hr hstart ⊢
  cases hbyte : input[r.pos]? with
  | none => exact ends_refuse hr
  | some b =>
    obtain ⟨hlt, -⟩ := List.getElem?_eq_some_iff.mp hbyte
    refine (ends_step hlen hr hbyte).bind fun r₁ ⟨hr₁, hat⟩ => ?_
    have hnext (r' : Reader) (hr' : Onward input r₁ r') :
        (Standing input r' ∧ start ≤ r'.pos) ∧ r'.left input < r.left input := by
      obtain ⟨hstanding, hle⟩ := hr'
      refine ⟨⟨hstanding, by omega⟩, ?_⟩
      rw [Reader.left, Reader.left]
      omega
    have hle : start ≤ r₁.pos := by omega
    refine .ite (fun _ => ?_) fun _ => .ite (fun _ => ends_refuse hr₁) fun _ =>
      .ite (fun _ => ?_) fun _ => hnext r₁ ⟨hr₁, Nat.le_refl _⟩
    · cases fromUtf8 bytes with
      | none => exact ends_refuse hr₁
      | some text => exact ⟨hr₁, hle⟩
    · exact (ends_escape hlen hr₁).bind fun a ha => hnext a.2 ha

theorem ends_string {r : Reader} (h : Standing input r) :
    Ends (string input r) (fun a => Onward input r a.2) Stopped := by
  refine .ite (fun hquote => ?_) fun _ => ends_refuse h
  refine (ends_step hlen h hquote).bind fun r₁ ⟨hr₁, hat⟩ => ?_
  have hle : r.pos ≤ r₁.pos := by omega
  exact ends_loop (ends_stringRound hlen) ⟨hr₁, hle⟩

end

end CydMonitor.Battery
