import CydMonitor.Lib.Calendar
import CydMonitor.Lib.FixedWidth
import Mathlib.Data.UInt

/-!
# Backup timestamps (`host/cli/src/hooks/files.rs`)
-/

namespace CydMonitor.Backup

open Calendar FixedWidth

/-- A failed check of the program. -/
inductive Panic where
  | overflow
  deriving DecidableEq

/-- An `i64`, if it is one. -/
def i64 (n : ℤ) : Except Panic ℤ := if -2 ^ 63 ≤ n ∧ n < 2 ^ 63 then .ok n else .error .overflow

/-- `{n:0width}` of an `i64`. -/
def zeroPadded (width : ℕ) (n : ℤ) : List Char :=
  if n < 0 then '-' :: padded (width - 1) n.natAbs else padded width n.natAbs

/-- Year, month and day of a number of days since 1970-01-01. -/
def civil (days : ℤ) : Except Panic (ℤ × ℤ × ℤ) := do
  let z ← i64 (days + 719468)
  let era := z / 146097
  let doe := z % 146097
  let yearDays ← i64 ((← i64 ((← i64 (doe - doe.tdiv 1460)) + doe.tdiv 36524)) - doe.tdiv 146096)
  let yoe := yearDays.tdiv 365
  let before ← i64 ((← i64 ((← i64 (365 * yoe)) + yoe.tdiv 4)) - yoe.tdiv 100)
  let doy ← i64 (doe - before)
  let mp := (← i64 ((← i64 (5 * doy)) + 2)).tdiv 153
  let day ← i64 ((← i64 (doy - (← i64 ((← i64 (153 * mp)) + 2)).tdiv 5)) + 1)
  let month ← if mp < 10 then i64 (mp + 3) else i64 (mp - 9)
  let year ← i64 ((← i64 (yoe + (← i64 (era * 400)))) + if month ≤ 2 then 1 else 0)
  pure (year, month, day)

/-- `YYYYMMDDHHMMSS` in UTC for seconds since the Unix epoch. -/
def timestamp (unixSeconds : UInt64) : Except Panic (List Char) := do
  let days := (unixSeconds / 86400).toInt64.toInt
  let rest := (unixSeconds % 86400).toNat
  let (year, month, day) ← civil days
  pure (zeroPadded 4 year ++ (zeroPadded 2 month ++ (zeroPadded 2 day ++
    (padded 2 (rest / 3600) ++ (padded 2 (rest % 3600 / 60) ++ padded 2 (rest % 60))))))

/-- Day of an era of 400 years, a day of the `b`th four years and `a` years of the century `c`. -/
structure EraDay where
  c : ℕ
  b : ℕ
  a : ℕ
  doy : ℕ
  century : c < 4
  four : b < 25
  year : a < 4
  day : doy < 365 ∨ doy = 365 ∧ a = 3 ∧ (b < 24 ∨ c = 3)

namespace EraDay

def doe (e : EraDay) : ℕ := 36524 * e.c + 1461 * e.b + 365 * e.a + e.doy

def yoe (e : EraDay) : ℕ := 100 * e.c + 4 * e.b + e.a

theorem exists_doe {n : ℕ} (h : n < 146097) : ∃ e : EraDay, e.doe = n := by
  have hc : min 3 (n / 36524) < 4 := by omega
  generalize hcentury : min 3 (n / 36524) = c at hc
  obtain ⟨r, hr⟩ : ∃ r, n = 36524 * c + r := ⟨n - 36524 * c, by omega⟩
  have hlast : r < 36524 ∨ r = 36524 ∧ c = 3 := by omega
  obtain ⟨b, hb⟩ : ∃ b, b = r / 1461 := ⟨_, rfl⟩
  obtain ⟨s, hs⟩ : ∃ s, s = r % 1461 := ⟨_, rfl⟩
  have hsum : r = 1461 * b + s ∧ s < 1461 := by omega
  refine ⟨⟨c, b, min 3 (s / 365), s - 365 * min 3 (s / 365), hc, by omega, by omega, ?_⟩, ?_⟩
  · omega
  · simp only [doe]
    omega

variable (e : EraDay)

/-- The leap days so far are taken out of the days before they are divided into years. -/
theorem yoe_eq : (e.doe - e.doe / 1460 + e.doe / 36524 - e.doe / 146096) / 365 = e.yoe := by
  obtain ⟨c, b, a, doy, hc, hb, ha, hd⟩ := e
  have hcenturies : (36524 * c + 1461 * b + 365 * a + doy) / 36524 =
      c + (36524 * c + 1461 * b + 365 * a + doy) / 146096 := by
    obtain ⟨r, hr⟩ : ∃ r, 1461 * b + 365 * a + doy = r := ⟨_, rfl⟩
    have hlast : r < 36524 ∨ r = 36524 ∧ c = 3 := by omega
    rw [show 36524 * c + 1461 * b + 365 * a + doy = 36524 * c + r by omega]
    rcases hlast with hlast | ⟨rfl, rfl⟩
    · omega
    · rfl
  obtain ⟨q, hq⟩ : ∃ q, (24 * c + b + 365 * a + doy) / 1460 = q := ⟨_, rfl⟩
  have hfours : (36524 * c + 1461 * b + 365 * a + doy) / 1460 = 25 * c + b + q := by
    omega
  have hlate : (q = 0 ∧ doy < 365) ∨ (q = 1 ∧ 1 ≤ doy) := by
    omega
  simp only [doe, yoe, hcenturies, hfours]
  omega

theorem doy_eq : 365 * e.yoe + e.yoe / 4 - e.yoe / 100 + e.doy = e.doe := by
  obtain ⟨c, b, a, doy, hc, hb, ha, hd⟩ := e
  simp only [doe, yoe]
  omega

theorem yoe_lt : e.yoe < 400 := by
  obtain ⟨c, b, a, doy, hc, hb, ha, hd⟩ := e
  simp only [yoe]
  omega

/-- The last day of a year that ends with a leap day. -/
theorem isLeap_of_last (era : ℕ) (h : e.doy = 365) : IsLeap (400 * era + e.yoe + 1) := by
  obtain ⟨c, b, a, doy, hc, hb, ha, hd⟩ := e
  simp only [yoe, IsLeap] at h ⊢
  omega

def mp : ℕ := (5 * e.doy + 2) / 153

def month : ℕ := if e.mp < 10 then e.mp + 3 else e.mp - 9

theorem mp_bounds : e.mp ≤ 11 ∧ (153 * e.mp + 2) / 5 ≤ e.doy ∧
    e.doy ≤ 365 ∧ e.doy < (153 * (e.mp + 1) + 2) / 5 := by
  have hday := e.day
  rw [mp]
  omega

/-- The date in an era. -/
def date (era : ℕ) : Date where
  year := 400 * era + e.yoe + if e.month ≤ 2 then 1 else 0
  month := e.month
  day := e.doy - (153 * e.mp + 2) / 5 + 1
  month_valid := by
    have h := e.mp_bounds.1
    rw [month]
    split <;> omega
  day_valid := by
    refine ⟨Nat.le_add_left _ _, ?_⟩
    obtain ⟨hmp, hlow, hyear, hhigh⟩ := e.mp_bounds
    have hleap := e.isLeap_of_last era
    rw [month]
    generalize e.mp = m at *
    generalize e.doy = doy at *
    generalize 400 * era + e.yoe = year at *
    by_cases hlast : m = 11
    · subst hlast
      show doy - 337 + 1 ≤ if IsLeap (year + 1) then 29 else 28
      by_cases h : IsLeap (year + 1)
      · rw [if_pos h]
        omega
      · rw [if_neg h]
        have hday := mt hleap h
        omega
    · have hm : m ≤ 10 := by omega
      interval_cases m <;> simp [daysInMonth] <;> omega

theorem daysToMarch_eq (era : ℕ) :
    daysToMarch (400 * era + e.yoe) = 146097 * era + (365 * e.yoe + e.yoe / 4 - e.yoe / 100) := by
  have h := e.yoe_lt
  generalize e.yoe = y at *
  rw [daysToMarch]
  have h₁ : (400 * era + y) / 4 = 100 * era + y / 4 := by omega
  have h₂ : (400 * era + y) / 100 = 4 * era + y / 100 := by omega
  have h₃ : (400 * era + y) / 400 = era := by omega
  have hle : y / 100 ≤ y / 4 := Nat.div_le_div_left (by decide) (by decide)
  rw [h₁, h₂, h₃]
  omega

theorem number_date (era : ℕ) : (e.date era).number = 146097 * era + e.doe + 60 := by
  obtain ⟨hmp, hlow, hyear, hhigh⟩ := e.mp_bounds
  have hmarch := e.daysToMarch_eq era
  have hdoy := e.doy_eq
  simp only [Date.number, date]
  generalize 400 * era + e.yoe = year at *
  by_cases hten : e.mp < 10
  · have hmonth : e.month = e.mp + 3 := if_pos hten
    have hmonths := daysBeforeMonth_march year hten
    rw [if_neg (by omega), hmonth, Nat.add_zero]
    omega
  · have hmonth : e.month = e.mp - 9 := if_neg hten
    rw [if_pos (by omega), daysBeforeYear_eq, hmonth]
    have hcase : e.mp = 10 ∨ e.mp = 11 := by omega
    rcases hcase with hcase | hcase
    · rw [hcase] at hlow ⊢
      have hjanuary : daysBeforeMonth (year + 1) (10 - 9) = 0 := rfl
      omega
    · rw [hcase] at hlow ⊢
      have hfebruary : daysBeforeMonth (year + 1) (11 - 9) = 31 := rfl
      omega

end EraDay

section Civil

private theorem i64_of {n : ℤ} (h : -2 ^ 63 ≤ n ∧ n < 2 ^ 63) : i64 n = .ok n := if_pos h
private theorem ok_bind {α β : Type} (a : α) (f : α → Except Panic β) :
    (Except.ok a >>= f) = f a := rfl

private theorem yearDays_eq (n : ℕ) :
    (n : ℤ) - (n : ℤ) / 1460 + (n : ℤ) / 36524 - (n : ℤ) / 146096 =
      ((n - n / 1460 + n / 36524 - n / 146096 : ℕ) : ℤ) := by
  have h₁ : n / 1460 ≤ n := Nat.div_le_self _ _
  have h₂ : n / 146096 ≤ n / 36524 := Nat.div_le_div_left (by decide) (by decide)
  rw [Nat.cast_sub (by omega), Nat.cast_add, Nat.cast_sub h₁]
  norm_cast

private theorem doy_int {doe yoe doy : ℕ} (h : 365 * yoe + yoe / 4 - yoe / 100 + doy = doe) :
    (doe : ℤ) - (365 * (yoe : ℤ) + (yoe : ℤ) / 4 - (yoe : ℤ) / 100) = (doy : ℤ) := by
  have h₂ : yoe / 100 ≤ yoe / 4 := Nat.div_le_div_left (by decide) (by decide)
  omega

private theorem civil_of {days : ℤ} {era doe yoe doy mp : ℕ}
    (hdays : days + 719468 < 2 ^ 63 ∧ 0 ≤ days) (hera : (days + 719468) / 146097 = era)
    (hdoe : (days + 719468) % 146097 = doe)
    (hyoe : (doe - doe / 1460 + doe / 36524 - doe / 146096) / 365 = yoe)
    (hdoy : 365 * yoe + yoe / 4 - yoe / 100 + doy = doe) (hmp : (5 * doy + 2) / 153 = mp)
    (hbounds : era < 2 ^ 48 ∧ doe < 146097 ∧ yoe < 400 ∧ doy ≤ 365 ∧ mp ≤ 11) :
    let month := if mp < 10 then (mp : ℤ) + 3 else (mp : ℤ) - 9
    civil days = .ok ((yoe : ℤ) + (era : ℤ) * 400 + (if month ≤ 2 then 1 else 0), month,
      (doy : ℤ) - (153 * (mp : ℤ) + 2) / 5 + 1) := by
  intro month
  have hyearInt := yearDays_eq doe
  have hdoyInt := doy_int hdoy
  have hyoeInt : ((doe - doe / 1460 + doe / 36524 - doe / 146096 : ℕ) : ℤ).tdiv 365 = (yoe : ℤ) :=
    congrArg Nat.cast hyoe
  have hmpInt : ((5 * doy + 2 : ℕ) : ℤ).tdiv 153 = (mp : ℤ) := congrArg Nat.cast hmp
  rw [Nat.cast_add, Nat.cast_mul, Nat.cast_ofNat, Nat.cast_ofNat] at hmpInt
  clear hyoe hdoy hmp
  obtain ⟨h₁, h₂, h₃, h₄, h₅⟩ := hbounds
  rw [civil, i64_of (by omega), ok_bind]
  simp only [hera, hdoe, Int.natCast_tdiv_eq_ediv]
  clear hera hdoe
  rw [i64_of (by clear hyearInt hdoyInt; omega), ok_bind]
  rw [i64_of (by clear hyearInt hdoyInt; omega), ok_bind]
  rw [i64_of (by clear hyearInt hdoyInt; omega), ok_bind, hyearInt, hyoeInt]
  clear hyearInt
  simp only [Int.natCast_tdiv_eq_ediv]
  rw [i64_of (by clear hdoyInt; omega), ok_bind]
  rw [i64_of (by clear hdoyInt; omega), ok_bind]
  rw [i64_of (by clear hdoyInt; omega), ok_bind, hdoyInt]
  clear hdoyInt
  rw [i64_of (by omega), ok_bind, i64_of (by omega), ok_bind, i64_of (by omega), ok_bind, hmpInt,
    i64_of (by omega), ok_bind, i64_of (by omega), ok_bind]
  rw [Int.tdiv_eq_ediv_of_nonneg (by omega)]
  rw [i64_of (by omega), ok_bind, i64_of (by omega), ok_bind]
  by_cases hten : mp < 10
  · have hmonth : month = (mp : ℤ) + 3 := if_pos hten
    rw [if_pos (by omega), hmonth, i64_of (by omega), ok_bind, i64_of (by omega), ok_bind,
      i64_of (by omega), ok_bind, i64_of (by split <;> omega), ok_bind]
    rfl
  · have hmonth : month = (mp : ℤ) - 9 := if_neg hten
    rw [if_neg (by omega), hmonth, i64_of (by omega), ok_bind, i64_of (by omega), ok_bind,
      i64_of (by omega), ok_bind, i64_of (by split <;> omega), ok_bind]
    rfl

theorem civil_eq {days : ℕ} (h : days < 2 ^ 48) :
    ∃ era, ∃ e : EraDay, 146097 * era + e.doe = days + 719468 ∧
      civil days = .ok ((e.date era).year, (e.date era).month, (e.date era).day) := by
  obtain ⟨e, he⟩ := EraDay.exists_doe (Nat.mod_lt (days + 719468) (by decide : 0 < 146097))
  refine ⟨(days + 719468) / 146097, e, by omega, ?_⟩
  obtain ⟨hmp, hlow, hyear, -⟩ := e.mp_bounds
  have hcivil := @civil_of days ((days + 719468) / 146097) e.doe e.yoe e.doy e.mp (by omega)
    (by omega) (by omega) e.yoe_eq e.doy_eq rfl ⟨by omega, by omega, e.yoe_lt, hyear, hmp⟩
  rw [hcivil]
  have hmonth : (if e.mp < 10 then (e.mp : ℤ) + 3 else (e.mp : ℤ) - 9) = (e.month : ℤ) := by
    rw [EraDay.month]
    split <;> omega
  rw [hmonth]
  generalize (days + 719468) / 146097 = era
  have hyearInt : (e.yoe : ℤ) + (era : ℤ) * 400 + (if (e.month : ℤ) ≤ 2 then 1 else 0) =
      ((e.date era).year : ℤ) := by
    simp only [EraDay.date]
    by_cases htwo : e.month ≤ 2
    · rw [if_pos (by omega), if_pos htwo]
      omega
    · rw [if_neg (by omega), if_neg htwo]
      omega
  have hday : (e.doy : ℤ) - (153 * (e.mp : ℤ) + 2) / 5 + 1 = ((e.date era).day : ℤ) := by
    simp only [EraDay.date]
    omega
  rw [hyearInt, hday]
  rfl

end Civil

section Text

/-- Year, month, day, hour, minute and second, the year of at least four digits. -/
def text (m : Moment) : List Char :=
  padded 4 m.date.year ++ (padded 2 m.date.month ++ (padded 2 m.date.day ++
    (padded 2 m.hour ++ (padded 2 m.minute ++ padded 2 m.second))))

/-- The first of January 1970. -/
def epoch : Date where
  year := 1970
  month := 1
  day := 1
  month_valid := by decide
  day_valid := by decide

theorem number_epoch : epoch.number = 719528 := by
  rw [Date.number, epoch, daysBeforeYear_eq 1969]
  rfl

private theorem zeroPadded_natCast (width n : ℕ) : zeroPadded width n = padded width n := by
  rw [zeroPadded, if_neg (by omega), Int.natAbs_natCast]

private theorem toInt_of_lt {n : UInt64} (h : n.toNat < 2 ^ 63) : n.toInt64.toInt = n.toNat :=
  calc
    n.toInt64.toInt = (UInt64.ofNat n.toNat).toInt64.toInt := by rw [UInt64.ofNat_toNat]
    _ = (Int64.ofNat n.toNat).toInt := by rw [UInt64.toInt64_ofNat']
    _ = n.toNat := Int64.toInt_ofNat_of_lt h

theorem exists_moment (unixSeconds : UInt64) :
    ∃ m : Moment, timestamp unixSeconds = .ok (text m) ∧
      m.seconds = unixSeconds.toNat + epoch.number * 86400 := by
  have hlt := unixSeconds.toNat_lt
  have hdays : (unixSeconds / 86400).toNat = unixSeconds.toNat / 86400 := UInt64.toNat_div _ _
  have hrest : (unixSeconds % 86400).toNat = unixSeconds.toNat % 86400 := UInt64.toNat_mod _ _
  have hint : (unixSeconds / 86400).toInt64.toInt = ((unixSeconds.toNat / 86400 : ℕ) : ℤ) :=
    (toInt_of_lt (by omega)).trans (congrArg Nat.cast hdays)
  obtain ⟨era, e, he, hcivil⟩ := @civil_eq (unixSeconds.toNat / 86400) (by omega)
  have hrestLt : unixSeconds.toNat % 86400 < 86400 := Nat.mod_lt _ (by decide)
  refine ⟨⟨e.date era, unixSeconds.toNat % 86400 / 3600, unixSeconds.toNat % 86400 % 3600 / 60,
    unixSeconds.toNat % 86400 % 60, by omega, by omega, by omega⟩, ?_, ?_⟩
  · rw [timestamp, hint, hrest, hcivil, ok_bind]
    simp only [zeroPadded_natCast, text]
    rfl
  · simp only [Moment.seconds, EraDay.number_date, number_epoch]
    omega

/-- A later moment of four-digit years has the larger text. -/
theorem text_lt {m n : Moment} (hm : m.date.year < 10000) (hn : n.date.year < 10000)
    (h : m.seconds < n.seconds) : text m < text n := by
  have hmMonth := m.date.month_valid
  have hnMonth := n.date.month_valid
  have hmDay := m.date.day_le
  have hnDay := n.date.day_le
  have hmHour := m.hour_lt
  have hnHour := n.hour_lt
  have hmMinute := m.minute_lt
  have hnMinute := n.minute_lt
  have hmSecond := m.second_lt
  have hnSecond := n.second_lt
  rw [text, text, padded_append_lt (by decide) hm hn,
    padded_append_lt (by decide) (by omega) (by omega),
    padded_append_lt (by decide) (by omega) (by omega),
    padded_append_lt (by decide) (by omega) (by omega),
    padded_append_lt (by decide) (by omega) (by omega),
    (padded_lt (by decide : 0 < 2) (by omega) (by omega)).1]
  rcases Moment.fields_of_seconds_lt h with hdate | ⟨hdate, htime⟩
  · rw [Date.Before] at hdate
    tauto
  · rw [hdate]
    tauto

/-- The first of January 10000. -/
def fiveDigits : Date where
  year := 10000
  month := 1
  day := 1
  month_valid := by decide
  day_valid := by decide

theorem number_fiveDigits : fiveDigits.number = 3652425 := by
  rw [Date.number, fiveDigits, daysBeforeYear_eq 9999]
  rfl

theorem year_lt {m : Moment} (h : m.seconds < fiveDigits.number * 86400) :
    m.date.year < 10000 := by
  have hnumber : m.date.number < fiveDigits.number := by
    rw [Moment.seconds] at h
    omega
  rcases Date.trichotomy m.date fiveDigits with hsame | hbefore | hafter
  · rw [hsame] at hnumber
    omega
  · have hfields : m.date.year < 10000 ∨ m.date.year = 10000 ∧
        (m.date.month < 1 ∨ m.date.month = 1 ∧ m.date.day < 1) := hbefore
    have hmonth := m.date.month_valid.1
    have hday := m.date.day_valid.1
    omega
  · have hlt := hafter.number_lt
    omega

end Text

/-- Timestamps are the civil time of their seconds, and up to the year 9999 they are ordered as
the seconds are. -/
theorem timestamp_civil (unixSeconds : UInt64) :
    (∃ m : Moment, timestamp unixSeconds = .ok (text m) ∧
      m.seconds = unixSeconds.toNat + epoch.number * 86400 ∧
      4 ≤ (padded 4 m.date.year).length ∧
      ∀ n ∈ [m.date.month, m.date.day, m.hour, m.minute, m.second], (padded 2 n).length = 2) ∧
    ∀ other : UInt64, unixSeconds.toNat + epoch.number * 86400 < fiveDigits.number * 86400 →
      other.toNat + epoch.number * 86400 < fiveDigits.number * 86400 →
      ∃ s t, timestamp unixSeconds = .ok s ∧ timestamp other = .ok t ∧
        (s < t ↔ unixSeconds < other) := by
  obtain ⟨m, hm, hseconds⟩ := exists_moment unixSeconds
  constructor
  · refine ⟨m, hm, hseconds, length_le_padded _ _, fun n hn => length_padded (by decide) ?_⟩
    have hmonth := m.date.month_valid
    have hday := m.date.day_le
    have hhour := m.hour_lt
    have hminute := m.minute_lt
    have hsecond := m.second_lt
    simp only [List.mem_cons, List.not_mem_nil, or_false] at hn
    omega
  · intro other hlt hltOther
    obtain ⟨n, hn, hsecondsOther⟩ := exists_moment other
    have hmYear := year_lt (hseconds.trans_lt hlt)
    have hnYear := year_lt (hsecondsOther.trans_lt hltOther)
    clear hlt hltOther
    generalize epoch.number = start at *
    refine ⟨_, _, hm, hn, fun h => ?_, fun h => ?_⟩
    · rcases Nat.lt_trichotomy unixSeconds.toNat other.toNat with hbefore | hsame | hafter
      · exact UInt64.lt_iff_toNat_lt.mpr hbefore
      · have hsame' : text m = text n := by
          rw [UInt64.toNat_inj.mp hsame] at hm
          exact Except.ok.inj (hm.symm.trans hn)
        rw [hsame'] at h
        exact absurd h (List.lt_irrefl _)
      · exact absurd h (List.lt_asymm (text_lt hnYear hmYear (by omega)))
    · refine text_lt hmYear hnYear ?_
      have hlt := UInt64.lt_iff_toNat_lt.mp h
      omega

/-- The last second before a leap day and its first one. -/
theorem timestamp_civil_leap_day :
    ∃ s t, timestamp 951782399 = .ok s ∧ timestamp 951782400 = .ok t ∧
      (s < t ↔ (951782399 : UInt64) < 951782400) := by
  refine (timestamp_civil 951782399).2 951782400 ?_ ?_
  · rw [number_epoch, number_fiveDigits]
    decide
  · rw [number_epoch, number_fiveDigits]
    decide

example : timestamp 951782400 = .ok "20000229000000".toList := by decide +kernel

end CydMonitor.Backup
