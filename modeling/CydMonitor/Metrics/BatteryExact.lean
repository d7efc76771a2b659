import CydMonitor.Metrics.BatteryDecoding
import Mathlib.Tactic.Linarith

/-!
# The battery sources as a whole

A power profile is read without a failed check and with every escape decoded as it should be, and
a charge is rated without overflow, exactly under the conditions here.
-/

namespace CydMonitor.Battery

open Outcome

/-- The escapes that the reader comes to, also where it stops early. -/
def metEscapes (input : List UInt8) {F : Type} (f64 : F64 F) : List Escape :=
  match parse input f64 with
  | .ok (_, r) => r.met
  | .error (_, r) => r.met

/-- What the reader takes for the text of an escape after its `\u`. -/
def Escape.text (e : Escape) : List UInt8 :=
  e.first ++ (e.second.map (ascii "\\u" ++ ·)).getD []

private theorem getRange_eq {input : List UInt8} {start stop : ℕ} {text : List UInt8}
    (h : getRange input start stop = some text) :
    start ≤ stop ∧ stop ≤ input.length ∧ input.drop start = text ++ input.drop stop := by
  rw [getRange] at h
  split_ifs at h with hfits
  refine ⟨hfits.1, hfits.2, ?_⟩
  have hdrop : input.drop stop = (input.drop start).drop (stop - start) := by
    rw [List.drop_drop, Nat.add_sub_cancel' hfits.1]
  rw [← Option.some.inj h, hdrop, List.take_append_drop]

private theorem hex4_text {input : List UInt8} {r r' : Reader} {unit : ℕ} {digits : List UInt8}
    (h : hex4 input r = .ok ((unit, digits), r')) :
    fromStrRadix digits = some unit ∧ r'.met = r.met ∧
      input.drop r.pos = digits ++ input.drop r'.pos := by
  rw [hex4] at h
  split_ifs at h with hfits
  · cases hrange : getRange input r.pos (r.pos + 4) with
    | none =>
      rw [hrange] at h
      cases h
    | some text =>
      rw [hrange] at h
      dsimp only at h
      cases hunit : fromStrRadix text with
      | none =>
        rw [hunit] at h
        cases h
      | some n =>
        rw [hunit] at h
        cases h
        exact ⟨hunit, rfl, (getRange_eq hrange).2.2⟩
  · cases h

private theorem secondUnit_text {input : List UInt8} {r r' : Reader} {unit : ℕ}
    {second : Option (ℕ × List UInt8)} (h : secondUnit input unit r = .ok (second, r')) :
    r'.met = r.met ∧ (second.map (·.2)).bind fromStrRadix = second.map (·.1) ∧
      input.drop r.pos =
        ((second.map (·.2)).map (ascii "\\u" ++ ·)).getD [] ++ input.drop r'.pos := by
  have hnone (h : (none, r) = (second, r')) : r'.met = r.met ∧
      (second.map (·.2)).bind fromStrRadix = second.map (·.1) ∧
      input.drop r.pos =
        ((second.map (·.2)).map (ascii "\\u" ++ ·)).getD [] ++ input.drop r'.pos := by
    cases h
    exact ⟨rfl, rfl, rfl⟩
  rw [secondUnit] at h
  by_cases hhigh : isHigh unit = true
  · rw [if_pos hhigh] at h
    by_cases hfits : r.pos + 2 < 2 ^ 64
    · have hadvance : r.advance 2 = .ok { r with pos := r.pos + 2 } := by
        rw [Reader.advance, addUsize, if_pos hfits]
        rfl
      rw [addUsize, if_pos hfits] at h
      simp only [bind, Except.bind] at h
      by_cases hrange : getRange input r.pos (r.pos + 2) = some (ascii "\\u")
      · rw [if_pos hrange, hadvance] at h
        dsimp only at h
        cases hlow : hex4 input { r with pos := r.pos + 2 } with
        | error e =>
          rw [hlow] at h
          cases h
        | ok a =>
          obtain ⟨⟨low, digits⟩, r₂⟩ := a
          rw [hlow] at h
          cases h
          obtain ⟨hunit, hmet, htext⟩ := hex4_text hlow
          refine ⟨hmet, hunit, ?_⟩
          rw [(getRange_eq hrange).2.2, htext]
          exact (List.append_assoc ..).symm
      · rw [if_neg hrange] at h
        exact hnone (Except.ok.inj h)
    · rw [addUsize, if_neg hfits] at h
      cases h
  · rw [if_neg hhigh] at h
    exact hnone (Except.ok.inj h)

/-- The reader notes the escape that it takes from the input and puts its character. -/
theorem unicode_text {input : List UInt8} {r r' : Reader} {ch : Char}
    (h : unicode input r = .ok (ch, r')) :
    ∃ e : Escape, r'.met = r.met ++ [e] ∧ e.char = some ch ∧
      input.drop r.pos = e.text ++ input.drop r'.pos := by
  rw [unicode] at h
  cases hfirst : hex4 input r with
  | error e =>
    rw [hfirst] at h
    cases h
  | ok a =>
    obtain ⟨⟨unit, first⟩, r₁⟩ := a
    obtain ⟨hunit, hmet₁, htext₁⟩ := hex4_text hfirst
    simp only [bind, Except.bind, hfirst] at h
    cases hsecond : secondUnit input unit r₁ with
    | error e =>
      rw [hsecond] at h
      cases h
    | ok a =>
      obtain ⟨second, r₂⟩ := a
      obtain ⟨hmet₂, hlow, htext₂⟩ := secondUnit_text hsecond
      rw [hsecond] at h
      dsimp only at h
      cases hdecoded : decoded unit (second.map (·.1)) with
      | none =>
        rw [hdecoded] at h
        cases h
      | some c =>
        rw [hdecoded] at h
        cases h
        refine ⟨{ first, second := second.map (·.2) }, by rw [hmet₂, hmet₁], ?_, ?_⟩
        · rw [Escape.char, hunit, hlow]
          exact hdecoded
        · rw [htext₁, htext₂, ← List.append_assoc]
          rfl

/-- No failed check, and in an accepted document every escape is decoded as it should be. -/
def ProfileSound (input : List UInt8) {F : Type} (f64 : F64 F) : Prop :=
  (∀ p, parsePowerProfile input f64 ≠ .error p) ∧
    ∀ v r, input.length ≤ maxProfilerBytes → parse input f64 = .ok (v, r) →
      ∀ e ∈ r.met, ∃ c, e.char = some c ∧ e.Denotes c

/-- No pair overflows, and in an accepted document every escape is a proper one. -/
def ProfileProper (input : List UInt8) {F : Type} (f64 : F64 F) : Prop :=
  input.length ≤ maxProfilerBytes →
    (∀ e ∈ metEscapes input f64, ¬e.Overflows) ∧
      ∀ v r, parse input f64 = .ok (v, r) → ∀ e ∈ r.met, e.Proper

theorem profileSound_iff (input : List UInt8) {F : Type} (f64 : F64 F) :
    ProfileSound input f64 ↔ ProfileProper input f64 := by
  by_cases hlen : input.length ≤ maxProfilerBytes
  · have hends := ends_parse hlen f64
    rw [ProfileSound, ProfileProper, metEscapes, parsePowerProfile, if_neg (by omega)]
    cases hparse : parse input f64 with
    | ok a =>
      obtain ⟨v, r⟩ := a
      rw [hparse] at hends
      have hright (e : Escape) (he : e ∈ r.met) :
          (∃ c, e.char = some c ∧ e.Denotes c) ↔ e.Proper := by
        obtain ⟨⟨unit, low, hread⟩, hover⟩ := hends.met e he
        exact escape_right hread hover
      constructor
      · intro ⟨_, hall⟩ _
        refine ⟨fun e he => (hends.met e he).2, fun v' r' hok e he => ?_⟩
        cases hok
        exact (hright e he).mp (hall v r hlen rfl e he)
      · intro h
        refine ⟨fun p hp => (by cases hp), fun v' r' _ hok e he => ?_⟩
        cases hok
        exact (hright e he).mpr ((h hlen).2 v r rfl e he)
    | error e =>
      obtain ⟨stop, r⟩ := e
      rw [hparse] at hends
      cases stop with
      | refused =>
        refine iff_of_true ⟨fun p hp => (by cases hp), fun _ _ _ hok => by cases hok⟩ fun _ => ?_
        exact ⟨hends.2, fun _ _ hok => by cases hok⟩
      | panic p =>
        refine iff_of_false (fun h => h.1 p rfl) fun h => ?_
        obtain ⟨e, he, hover⟩ := hends.2
        exact (h hlen).1 e he hover
  · refine iff_of_true ⟨fun p hp => ?_, fun _ _ h => absurd h hlen⟩ fun h => absurd h hlen
    rw [parsePowerProfile, if_pos (by omega)] at hp
    cases hp

/-- The ratio in thousandths, rounded to nearest and at most 1000. -/
def Rated (current max : Int64) (perMille : ℕ) : Prop :=
  2 * |perMille * max.toInt - 1000 * current.toInt| ≤ max.toInt ∧ perMille ≤ 1000

/-- Possible capacities whose sum overflows. -/
def ChargeOverflows (current max : Int64) : Prop :=
  0 < max.toInt ∧ 0 ≤ current.toInt ∧ current.toInt ≤ max.toInt ∧
    2 ^ 63 ≤ current.toInt * 1000 + max.toInt / 2

private theorem rated {c m : ℤ} (hm : 0 < m) (hc : 0 ≤ c) (hcm : c ≤ m) :
    0 ≤ (c * 1000 + m / 2) / m ∧ (c * 1000 + m / 2) / m ≤ 1000 ∧
      2 * |(c * 1000 + m / 2) / m * m - 1000 * c| ≤ m := by
  have hmul := Int.mul_ediv_add_emod (c * 1000 + m / 2) m
  have hlow := Int.emod_nonneg (c * 1000 + m / 2) (by omega : m ≠ 0)
  have hhigh := Int.emod_lt_of_pos (c * 1000 + m / 2) hm
  generalize (c * 1000 + m / 2) / m = q at *
  generalize (c * 1000 + m / 2) % m = s at *
  have hcomm : q * m = m * q := mul_comm q m
  refine ⟨?_, ?_, ?_⟩
  · by_contra hneg
    have hq : m * q ≤ m * (-1) := by
      refine Int.mul_le_mul_of_nonneg_left (by omega) (by omega)
    omega
  · by_contra hlarge
    have hq : m * 1001 ≤ m * q := Int.mul_le_mul_of_nonneg_left (by omega) (by omega)
    omega
  · rw [hcomm]
    obtain ⟨h₁, h₂⟩ : m * q - 1000 * c ≤ m / 2 ∧ -(m / 2) ≤ m * q - 1000 * c := by
      constructor
      · omega
      · omega
    have habs := abs_le.mpr ⟨h₂, h₁⟩
    omega

theorem charge_iff (current max : Int64) (isCharging isCharged onAc : Option Bool)
    (timeToEmpty timeToFull : Option Int64) :
    ((∀ p, chargeReading current max isCharging isCharged onAc timeToEmpty timeToFull ≠ .error p) ∧
      ∀ reading, chargeReading current max isCharging isCharged onAc timeToEmpty timeToFull =
        .ok (some reading) → Rated current max reading.perMille) ↔
          ¬ChargeOverflows current max := by
  rw [chargeReading, ChargeOverflows]
  simp only [Rated]
  have hcurrent := current.toInt_lt
  generalize current.toInt = c at *
  generalize max.toInt = m at *
  by_cases hbad : m ≤ 0 ∨ c < 0 ∨ c > m
  · rw [if_pos hbad]
    refine iff_of_true ⟨fun p hp => (by cases hp), fun reading hr => by cases hr⟩ ?_
    omega
  · rw [if_neg hbad]
    have hdiv : m.tdiv 2 = m / 2 := Int.tdiv_eq_ediv_of_nonneg (by omega)
    rw [hdiv]
    by_cases hover : 2 ^ 63 ≤ c * 1000 + m / 2
    · refine iff_of_false (fun h => ?_) (by simp only [not_not]; omega)
      by_cases hscaled : c * 1000 < 2 ^ 63
      · refine h.1 .overflow ?_
        rw [checked, if_pos ⟨by omega, hscaled⟩]
        simp only [bind, Except.bind]
        rw [checked, if_neg (by omega)]
      · refine h.1 .overflow ?_
        rw [checked, if_neg (by omega)]
        rfl
    · refine iff_of_true ?_ (by omega)
      obtain ⟨hnonneg, hle, hnear⟩ := @rated c m (by omega) (by omega) (by omega)
      have hscaled : checked (c * 1000) = .ok (c * 1000) := if_pos ⟨by omega, by omega⟩
      have hsum : checked (c * 1000 + m / 2) = .ok (c * 1000 + m / 2) := if_pos ⟨by omega, by omega⟩
      have hper : ((((c * 1000 + m / 2).tdiv m) % 2 ^ 16).toNat : ℤ) = (c * 1000 + m / 2) / m := by
        rw [Int.tdiv_eq_ediv_of_nonneg (by omega)]
        omega
      rw [hscaled]
      simp only [bind, Except.bind, hsum]
      refine ⟨fun p hp => (by cases hp), fun reading hr => ?_⟩
      obtain rfl := Option.some.inj (Except.ok.inj hr)
      refine ⟨?_, ?_⟩
      · rw [hper]
        exact hnear
      · show ((c * 1000 + m / 2).tdiv m % 2 ^ 16).toNat ≤ 1000
        omega

end CydMonitor.Battery
