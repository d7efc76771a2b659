import CydMonitor.Metrics.BatterySafe
import Mathlib.Data.Int.Order.Basic

/-!
# When the battery sources keep their word

Which escapes are decoded as they should be, which power sources are rated without overflow, and
that these are all the conditions there are.
-/

namespace CydMonitor.Battery

open Outcome
open Text (byte fromU32)

variable {input : List UInt8}

section

variable (hlen : input.length ≤ maxProfilerBytes) {F : Type}
  {read : Reader → Except Fail (Value F × Reader)}
  (hread : ∀ r, Standing input r → Ends (read r) (fun a => Onward input r a.2) Stopped)

include hlen hread

theorem ends_objectRound {start : ℕ} (s : List (List Char × Value F) × Reader)
    (h : Standing input s.2 ∧ start ≤ s.2.pos) :
    Ends (objectRound input read s)
      (Sum.elim
        (fun s' => (Standing input s'.2 ∧ start ≤ s'.2.pos) ∧ s'.2.left input < s.2.left input)
        fun a => Standing input a.2 ∧ start ≤ a.2.pos) Stopped := by
  obtain ⟨fields, r⟩ := s
  obtain ⟨hr, hstart⟩ := h
  refine (ends_skipSpace hlen hr).bind fun r₁ h₁ => ?_
  obtain ⟨hr₁, hle₁⟩ := h₁
  refine (ends_string hlen hr₁).bind fun a₂ h₂ => ?_
  obtain ⟨key, r₂⟩ := a₂
  obtain ⟨hr₂, hle₂⟩ := h₂
  refine (ends_eat hlen hr₂ _).bind fun a₃ h₃ => ?_
  obtain ⟨colon, r₃⟩ := a₃
  obtain ⟨⟨hr₃, hle₃⟩, -⟩ := h₃
  refine .ite (fun _ => ends_refuse hr₃) fun _ => ?_
  refine (hread r₃ hr₃).bind fun a₄ h₄ => ?_
  obtain ⟨v, r₄⟩ := a₄
  obtain ⟨hr₄, hle₄⟩ := h₄
  refine (ends_eat hlen hr₄ _).bind fun a₅ h₅ => ?_
  obtain ⟨comma, r₅⟩ := a₅
  obtain ⟨⟨hr₅, hle₅⟩, hcomma⟩ := h₅
  dsimp only at hstart hle₁ hle₂ hle₃ hle₄ hle₅ hcomma
  refine .ite (fun heaten => ?_) fun _ => ?_
  · have hlt := hcomma heaten
    have hle : start ≤ r₅.pos := by omega
    have hleft : r₅.left input < r.left input := by
      have hend : r₅.pos ≤ input.length := hr₅.pos
      rw [Reader.left, Reader.left]
      omega
    exact ⟨⟨hr₅, hle⟩, hleft⟩
  · refine (ends_eat hlen hr₅ _).bind fun a₆ h₆ => ?_
    obtain ⟨brace, r₆⟩ := a₆
    obtain ⟨⟨hr₆, hle₆⟩, -⟩ := h₆
    have hle : start ≤ r₆.pos := by
      dsimp only at hle₆
      omega
    exact .ite (fun _ => ⟨hr₆, hle⟩) fun _ => ends_refuse hr₆

theorem ends_arrayRound {start : ℕ} (s : List (Value F) × Reader)
    (h : Standing input s.2 ∧ start ≤ s.2.pos) :
    Ends (arrayRound input read s)
      (Sum.elim
        (fun s' => (Standing input s'.2 ∧ start ≤ s'.2.pos) ∧ s'.2.left input < s.2.left input)
        fun a => Standing input a.2 ∧ start ≤ a.2.pos) Stopped := by
  obtain ⟨items, r⟩ := s
  obtain ⟨hr, hstart⟩ := h
  refine (hread r hr).bind fun a₁ ha₁ => ?_
  obtain ⟨v, r₁⟩ := a₁
  obtain ⟨hr₁, hle₁⟩ := ha₁
  refine (ends_eat hlen hr₁ _).bind fun a₂ ha₂ => ?_
  obtain ⟨comma, r₂⟩ := a₂
  obtain ⟨⟨hr₂, hle₂⟩, hcomma⟩ := ha₂
  dsimp only at hstart hle₁ hle₂ hcomma
  refine .ite (fun heaten => ?_) fun _ => ?_
  · have hlt := hcomma heaten
    have hle : start ≤ r₂.pos := by omega
    have hleft : r₂.left input < r.left input := by
      have hend : r₂.pos ≤ input.length := hr₂.pos
      rw [Reader.left, Reader.left]
      omega
    exact ⟨⟨hr₂, hle⟩, hleft⟩
  · refine (ends_eat hlen hr₂ _).bind fun a₃ ha₃ => ?_
    obtain ⟨bracket, r₃⟩ := a₃
    obtain ⟨⟨hr₃, hle₃⟩, -⟩ := ha₃
    have hle : start ≤ r₃.pos := by
      dsimp only at hle₃
      omega
    exact .ite (fun _ => ⟨hr₃, hle⟩) fun _ => ends_refuse hr₃

theorem ends_valueAt {f64 : F64 F} {r : Reader} (h : Standing input r) {b : UInt8}
    (hb : input[r.pos]? = some b) :
    Ends (valueAt input f64 read b r) (fun a => Onward input r a.2) Stopped := by
  refine .ite (fun _ => ?_) fun _ => .ite (fun _ => ?_) fun _ => .ite (fun _ => ?_) fun _ =>
    .ite (fun _ => ends_literal h) fun _ => .ite (fun _ => ends_literal h) fun _ =>
      .ite (fun _ => ends_literal h) fun _ => .ite (fun _ => ends_number hlen h) fun _ =>
        ends_refuse h
  · refine (ends_step hlen h hb).bind fun r₁ ⟨hr₁, hat⟩ => ?_
    refine (ends_eat hlen hr₁ _).bind fun ⟨brace, r₂⟩ ⟨⟨hr₂, hle₂⟩, _⟩ => ?_
    have hle : r.pos ≤ r₂.pos := by
      dsimp only at hle₂
      omega
    exact .ite (fun _ => ⟨hr₂, hle⟩) fun _ => ends_loop (ends_objectRound hlen hread) ⟨hr₂, hle⟩
  · refine (ends_step hlen h hb).bind fun r₁ ⟨hr₁, hat⟩ => ?_
    refine (ends_eat hlen hr₁ _).bind fun ⟨bracket, r₂⟩ ⟨⟨hr₂, hle₂⟩, _⟩ => ?_
    have hle : r.pos ≤ r₂.pos := by
      dsimp only at hle₂
      omega
    exact .ite (fun _ => ⟨hr₂, hle⟩) fun _ => ends_loop (ends_arrayRound hlen hread) ⟨hr₂, hle⟩
  · exact (ends_string hlen h).bind fun a ha => ha

end

theorem ends_value (hlen : input.length ≤ maxProfilerBytes) {F : Type} {f64 : F64 F} (room : ℕ)
    {r : Reader} (h : Standing input r) :
    Ends (value input f64 room r) (fun a => Onward input r a.2) Stopped := by
  have hnodes : r.nodes + 1 < 2 ^ 64 := by
    have hle := h.nodes
    have hmax : maxJsonNodes < 2 ^ 63 := by decide
    omega
  induction room generalizing r with
  | zero =>
    rw [value, addUsize, if_pos hnodes]
    exact ⟨fun e he => (h.met e he).1, fun e he => (h.met e he).2⟩
  | succ room ih =>
    rw [value, addUsize, if_pos hnodes]
    refine .ite (fun _ => ?_) fun hcount => ?_
    · exact ⟨fun e he => (h.met e he).1, fun e he => (h.met e he).2⟩
    · have hr : Standing input { r with nodes := r.nodes + 1 } :=
        ⟨h.pos, Nat.le_of_not_lt hcount, h.met⟩
      refine (ends_skipSpace hlen hr).bind fun r₁ h₁ => ?_
      obtain ⟨hr₁, hle⟩ := h₁
      cases hb : input[r₁.pos]? with
      | none => exact ends_refuse hr₁
      | some b =>
        have hread (r : Reader) (hr : Standing input r) :
            Ends (value input f64 room r) (fun a => Onward input r a.2) Stopped := by
          refine ih hr ?_
          have hle := hr.nodes
          have hmax : maxJsonNodes < 2 ^ 63 := by decide
          omega
        exact (ends_valueAt hlen hread hr₁ hb).mono fun a ha => ⟨ha.1, hle.trans ha.2⟩

theorem ends_parse (hlen : input.length ≤ maxProfilerBytes) {F : Type} (f64 : F64 F) :
    Ends (parse input f64) (fun a => Standing input a.2) Stopped := by
  have hstart : Standing input {} := ⟨Nat.zero_le _, Nat.zero_le _, fun _ h => by cases h⟩
  refine (ends_value hlen _ hstart).bind fun ⟨v, r⟩ ⟨hr, _⟩ => ?_
  refine (ends_skipSpace hlen hr).bind fun r₁ ⟨hr₁, _⟩ => ?_
  exact .ite (fun _ => hr₁) fun _ => ends_refuse hr₁

/-- What a unit or a pair of units denotes: a character, or the replacement for a surrogate that
has no partner. Two units that are no pair are two escapes, which no one character stands for. -/
def Denotes (unit : ℕ) : Option ℕ → Char → Prop
  | none, c => if 0xD800 ≤ unit ∧ unit < 0xE000 then c = replacement else c.toNat = unit
  | some low, c => (0xDC00 ≤ low ∧ low < 0xE000) ∧
      c.toNat = 0x10000 + (unit - 0xD800) * 2 ^ 10 + (low - 0xDC00)

/-- The character that the reader puts for an escape. -/
def Escape.char (e : Escape) : Option Char := do
  let unit ← fromStrRadix e.first
  decoded unit (e.second.bind fromStrRadix)

/-- The escape is one of four digits each, and this is its character. -/
def Escape.Denotes (e : Escape) (c : Char) : Prop :=
  (∀ b ∈ e.first ++ e.second.getD [], (hexDigit b).isSome = true) ∧
    ∃ unit low, hexDigits e.first = some unit ∧ e.second.bind hexDigits = low ∧
      Battery.Denotes unit low c

/-- No sign among the digits, and no second unit above the surrogates. -/
def Escape.Proper (e : Escape) : Prop :=
  e.first.head? ≠ some (byte '+') ∧ (∀ s ∈ e.second, s.head? ≠ some (byte '+')) ∧
    ∀ low ∈ e.second.bind hexDigits, low < 0xE000

private theorem hexDigits_cons (d : UInt8) (ds : List UInt8) (n : ℕ) :
    (d :: ds).foldlM (fun n d => (hexDigit d).map (16 * n + ·)) n =
      ((hexDigit d).map (16 * n + ·)).bind fun n =>
        ds.foldlM (fun n d => (hexDigit d).map (16 * n + ·)) n :=
  List.foldlM_cons

theorem hexDigit_of_hexDigits {digits : List UInt8} {n : ℕ} (h : hexDigits digits = some n) :
    ∀ b ∈ digits, (hexDigit b).isSome = true := by
  rw [hexDigits] at h
  generalize 0 = m at h
  induction digits generalizing m with
  | nil => exact fun _ hb => by cases hb
  | cons d digits ih =>
    rw [hexDigits_cons] at h
    obtain ⟨next, hnext, h⟩ := Option.bind_eq_some_iff.mp h
    obtain ⟨v, hv, -⟩ := Option.map_eq_some_iff.mp hnext
    exact List.forall_mem_cons.mpr ⟨by simp [hv], ih _ h⟩

/-- Without a sign the digits are read as they are. -/
theorem fromStrRadix_digits {text : List UInt8} {n : ℕ} (h : fromStrRadix text = some n) :
    hexDigits text = some n ↔ text.head? ≠ some (byte '+') := by
  rw [fromStrRadix] at h
  constructor
  · intro hdigits hplus
    obtain ⟨ds, rfl⟩ := List.head?_eq_some_iff.mp hplus
    have hsome := hexDigit_of_hexDigits hdigits (byte '+') List.mem_cons_self
    exact absurd hsome (by decide)
  · intro hplus
    rw [if_neg hplus] at h
    split_ifs at h
    exact h

theorem fromU32_valid {code : ℕ} (h : code < 0xD800 ∨ 0xDFFF < code ∧ code < 0x110000) :
    ∃ c, fromU32 code = some c ∧ c.toNat = code := by
  have hvalid : code.isValidChar := h
  refine ⟨Char.ofNat code, if_pos hvalid, ?_⟩
  rw [Char.ofNat, dif_pos hvalid]
  rfl

theorem fromU32_surrogate {code : ℕ} (h : 0xD800 ≤ code ∧ code < 0xE000) : fromU32 code = none := by
  refine if_neg fun hvalid => ?_
  have hcases : code < 0xD800 ∨ 0xDFFF < code ∧ code < 0x110000 := hvalid
  omega

/-- What the reader puts is what the units denote, but for a second unit above the surrogates: it
is swallowed. -/
theorem denotes_decoded {unit : ℕ} {low : Option ℕ} (hunit : unit < 2 ^ 16)
    (hlow : ∀ n ∈ low, (isHigh unit = true ∧ n < 2 ^ 16) ∧ 0xDC00 ≤ n) :
    (∃ c, decoded unit low = some c ∧ Denotes unit low c) ↔ ∀ n ∈ low, n < 0xE000 := by
  cases low with
  | none =>
    refine iff_of_true ?_ fun _ hn => by cases hn
    by_cases hsurrogate : 0xD800 ≤ unit ∧ unit < 0xE000
    · refine ⟨replacement, ?_, ?_⟩
      · rw [decoded, fromU32_surrogate hsurrogate]
        rfl
      · rw [Denotes, if_pos hsurrogate]
    · obtain ⟨c, hc, hcode⟩ := @fromU32_valid unit (by omega)
      refine ⟨c, ?_, ?_⟩
      · rw [decoded, hc]
        rfl
      · rw [Denotes, if_neg hsurrogate]
        exact hcode
  | some n =>
    obtain ⟨⟨hhigh, hn⟩, hge⟩ := hlow n rfl
    have hle := high_lt hhigh
    rw [decoded_pair hhigh hge hn]
    constructor
    · rintro ⟨c, -, htrail, -⟩ m hm
      obtain rfl := Option.some.inj hm
      exact htrail.2
    · intro h
      have htrail := h n rfl
      obtain ⟨c, hc, hcode⟩ :=
        @fromU32_valid (0x10000 + (unit - 0xD800) * 2 ^ 10 + (n - 0xDC00)) (by omega)
      exact ⟨c, by rw [hc]; rfl, ⟨hge, htrail⟩, hcode⟩

/-- An escape that does not overflow is decoded as it should be exactly if it is a proper one. -/
theorem escape_right {e : Escape} {unit : ℕ} {low : Option ℕ} (h : e.Read unit low)
    (hover : ¬e.Overflows) : (∃ c, e.char = some c ∧ e.Denotes c) ↔ e.Proper := by
  have hchar : e.char = decoded unit low := by
    rw [Escape.char, h.first, h.second]
    rfl
  have hlow : ∀ n ∈ low, (isHigh unit = true ∧ n < 2 ^ 16) ∧ 0xDC00 ≤ n := by
    intro n hn
    refine ⟨h.low_lt n hn, Nat.le_of_not_lt fun hlt => hover ⟨n, ?_, hlt⟩⟩
    rw [h.second]
    exact hn
  have hfirst := fromStrRadix_digits h.first
  have hsecond (hplus : ∀ s ∈ e.second, s.head? ≠ some (byte '+')) :
      e.second.bind hexDigits = low ∧ ∀ s ∈ e.second, ∀ b ∈ s, (hexDigit b).isSome = true := by
    rw [← h.second]
    cases hs : e.second with
    | none => exact ⟨rfl, fun _ hs => by cases hs⟩
    | some s =>
      obtain ⟨n, hn⟩ : ∃ n, fromStrRadix s = some n := by
        have hboth := h.both
        rw [← h.second, hs] at hboth
        exact Option.isSome_iff_exists.mp hboth.symm
      have hdigits := (fromStrRadix_digits hn).mpr (hplus s hs)
      refine ⟨hdigits.trans hn.symm, fun t ht => ?_⟩
      obtain rfl := Option.some.inj ht
      exact hexDigit_of_hexDigits hdigits
  have hnoplus {s : List UInt8} (hs : ∀ b ∈ s, (hexDigit b).isSome = true) :
      s.head? ≠ some (byte '+') := by
    intro hplus
    exact absurd (hs _ (List.mem_of_mem_head? hplus)) (by decide)
  rw [hchar]
  constructor
  · intro ⟨c, hc, hdigits, unit', low', hunit', hlow', hdenotes⟩
    have hplus : ∀ s ∈ e.second, s.head? ≠ some (byte '+') := by
      intro s hs
      exact hnoplus fun b hb => hdigits b (List.mem_append_right _ (by rwa [hs]))
    have hhead := hnoplus fun b hb => hdigits b (List.mem_append_left _ hb)
    obtain rfl : unit = unit' := Option.some.inj ((hfirst.mpr hhead).symm.trans hunit')
    obtain rfl : low = low' := (hsecond hplus).1.symm.trans hlow'
    refine ⟨hhead, hplus, fun n hn => ?_⟩
    rw [(hsecond hplus).1] at hn
    exact (denotes_decoded h.unit_lt hlow).mp ⟨c, hc, hdenotes⟩ n hn
  · intro ⟨hhead, hplus, htrail⟩
    have hunit := hfirst.mpr hhead
    obtain ⟨hbind, hhex⟩ := hsecond hplus
    obtain ⟨c, hc, hdenotes⟩ := (denotes_decoded h.unit_lt hlow).mpr fun n hn =>
      htrail n (hbind ▸ hn)
    refine ⟨c, hc, fun b hb => ?_, unit, low, hunit, hbind, hdenotes⟩
    cases List.mem_append.mp hb with
    | inl hb => exact hexDigit_of_hexDigits hunit b hb
    | inr hb =>
      cases hs : e.second with
      | none =>
        rw [hs] at hb
        cases hb
      | some s =>
        rw [hs] at hb
        exact hhex s hs b hb

end CydMonitor.Battery
