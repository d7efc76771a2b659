import Mathlib.Algebra.Order.Group.Nat
import Mathlib.Data.Prod.Lex
import Mathlib.Tactic.IntervalCases
import Mathlib.Tactic.Ring

/-!
# The proleptic Gregorian calendar

Dates from the year 0 on and their day numbers, by the leap-year rule. Years that begin in March
end with the leap day, if there is one.
-/

namespace Calendar

def IsLeap (year : ℕ) : Prop := year % 4 = 0 ∧ (year % 100 ≠ 0 ∨ year % 400 = 0)

instance : DecidablePred IsLeap := fun _ => inferInstanceAs (Decidable (_ ∧ _))

def daysInMonth (year : ℕ) : ℕ → ℕ
  | 1 | 3 | 5 | 7 | 8 | 10 | 12 => 31
  | 4 | 6 | 9 | 11 => 30
  | 2 => if IsLeap year then 29 else 28
  | _ => 0

def daysInYear (year : ℕ) : ℕ := if IsLeap year then 366 else 365

def daysBeforeYear (year : ℕ) : ℕ := ((List.range year).map daysInYear).sum

def daysBeforeMonth (year month : ℕ) : ℕ :=
  ((List.range' 1 (month - 1)).map (daysInMonth year)).sum

/-- A date that exists. -/
structure Date where
  year : ℕ
  month : ℕ
  day : ℕ
  month_valid : 1 ≤ month ∧ month ≤ 12
  day_valid : 1 ≤ day ∧ day ≤ daysInMonth year month

/-- Days since the first of January of the year 0. -/
def Date.number (d : Date) : ℕ :=
  daysBeforeYear d.year + daysBeforeMonth d.year d.month + (d.day - 1)

/-- Days from the first of March of the year 0 to that of another year. -/
def daysToMarch (year : ℕ) : ℕ := 365 * year + year / 4 - year / 100 + year / 400

theorem daysBeforeYear_succ (year : ℕ) :
    daysBeforeYear (year + 1) = daysBeforeYear year + daysInYear year := by
  simp [daysBeforeYear, List.range_succ]

private theorem succ_div (year n : ℕ) :
    (year + 1) / n = year / n + if (year + 1) % n = 0 then 1 else 0 := by
  rw [Nat.succ_div]
  simp only [Nat.dvd_iff_mod_eq_zero]

theorem daysToMarch_succ (year : ℕ) :
    daysToMarch (year + 1) = daysToMarch year + daysInYear (year + 1) := by
  have hle : year / 100 ≤ year / 4 := Nat.div_le_div_left (by decide) (by decide)
  rw [daysToMarch, daysToMarch, daysInYear, succ_div year 4, succ_div year 100, succ_div year 400]
  generalize year / 4 = a at *
  generalize year / 100 = b at *
  generalize year / 400 = c at *
  by_cases h400 : (year + 1) % 400 = 0
  · have h100 : (year + 1) % 100 = 0 := by omega
    have h4 : (year + 1) % 4 = 0 := by omega
    rw [if_pos h4, if_pos h100, if_pos h400, if_pos ⟨h4, .inr h400⟩]
    omega
  by_cases h100 : (year + 1) % 100 = 0
  · have h4 : (year + 1) % 4 = 0 := by omega
    rw [if_pos h4, if_pos h100, if_neg h400, if_neg fun h => h.2.elim (· h100) h400]
    omega
  by_cases h4 : (year + 1) % 4 = 0
  · rw [if_pos h4, if_neg h100, if_neg h400, if_pos ⟨h4, .inl h100⟩]
    omega
  · rw [if_neg h4, if_neg h100, if_neg h400, if_neg fun h => h4 h.1]
    omega

/-- January follows the ten months from March. -/
theorem daysBeforeYear_eq (year : ℕ) : daysBeforeYear (year + 1) = daysToMarch year + 366 := by
  induction year with
  | zero => rfl
  | succ year ih => rw [daysBeforeYear_succ, ih, daysToMarch_succ, Nat.add_right_comm]

theorem daysBeforeMonth_succ (year : ℕ) {month : ℕ} (h : 1 ≤ month) :
    daysBeforeMonth year (month + 1) = daysBeforeMonth year month + daysInMonth year month := by
  obtain ⟨m, rfl⟩ := Nat.exists_eq_add_of_le' h
  simp [daysBeforeMonth, List.range'_concat, Nat.add_comm]

theorem daysBeforeMonth_mono (year : ℕ) : Monotone (daysBeforeMonth year) := by
  refine monotone_nat_of_le_succ fun month => ?_
  cases month with
  | zero => exact Nat.zero_le _
  | succ month =>
    rw [daysBeforeMonth_succ year (Nat.le_add_left _ _)]
    exact Nat.le_add_right _ _

theorem daysBeforeYear_mono : Monotone daysBeforeYear := by
  refine monotone_nat_of_le_succ fun year => ?_
  rw [daysBeforeYear_succ]
  exact Nat.le_add_right _ _

theorem daysBeforeMonth_end (year : ℕ) : daysBeforeMonth year 13 = daysInYear year := by
  simp only [daysBeforeMonth, daysInYear]
  by_cases h : IsLeap year
  · simp [List.range', daysInMonth, h]
  · simp [List.range', daysInMonth, h]

/-- A year that begins in March: the months by fifths of 153 days. -/
theorem daysBeforeMonth_march (year : ℕ) {m : ℕ} (h : m < 10) :
    daysBeforeYear year + daysBeforeMonth year (m + 3) =
      daysToMarch year + 60 + (153 * m + 2) / 5 := by
  have hyear : daysBeforeYear year + daysInYear year = daysToMarch year + 366 :=
    (daysBeforeYear_succ year).symm.trans (daysBeforeYear_eq year)
  have hmonth : daysBeforeMonth year (m + 3) + 306 = daysInYear year + (153 * m + 2) / 5 := by
    simp only [daysBeforeMonth, daysInYear]
    by_cases hleap : IsLeap year
    · interval_cases m <;> simp [List.range', daysInMonth, hleap]
    · interval_cases m <;> simp [List.range', daysInMonth, hleap]
  omega

namespace Date

variable (d e : Date)

/-- A day is before the next month. -/
theorem number_lt_month :
    d.number < daysBeforeYear d.year + daysBeforeMonth d.year (d.month + 1) := by
  have h := d.day_valid
  rw [number, daysBeforeMonth_succ _ d.month_valid.1]
  omega

theorem number_lt_year : d.number < daysBeforeYear (d.year + 1) := by
  have hmonth := daysBeforeMonth_mono d.year (Nat.succ_le_succ d.month_valid.2)
  rw [show Nat.succ 12 = 13 from rfl, daysBeforeMonth_end] at hmonth
  have hlt : d.number < daysBeforeYear d.year + daysBeforeMonth d.year d.month.succ :=
    d.number_lt_month
  rw [daysBeforeYear_succ]
  omega

theorem day_le : d.day ≤ 31 := by
  refine d.day_valid.2.trans ?_
  rw [daysInMonth.eq_def]
  split <;> try split
  all_goals omega

variable {d e}

/-- The order of the fields. -/
def Before (d e : Date) : Prop :=
  d.year < e.year ∨ d.year = e.year ∧ (d.month < e.month ∨ d.month = e.month ∧ d.day < e.day)

theorem Before.number_lt (h : d.Before e) : d.number < e.number := by
  rcases h with hyear | ⟨hyear, hmonth | ⟨hmonth, hday⟩⟩
  · have hle : daysBeforeYear (d.year + 1) ≤ daysBeforeYear e.year := daysBeforeYear_mono hyear
    have hlt := d.number_lt_year
    rw [number.eq_def e]
    exact (hlt.trans_le hle).trans_le (by omega)
  · have hle : daysBeforeMonth d.year (d.month + 1) ≤ daysBeforeMonth d.year e.month :=
      daysBeforeMonth_mono d.year hmonth
    have hlt := d.number_lt_month
    rw [number.eq_def e, ← hyear]
    exact hlt.trans_le (by omega)
  · have hd := d.day_valid
    rw [number, number, hyear, hmonth]
    omega

/-- Two dates are the same or one of them is the later. -/
theorem trichotomy (d e : Date) : d = e ∨ d.Before e ∨ e.Before d := by
  obtain ⟨year, month, day, _, _⟩ := d
  obtain ⟨year', month', day', _, _⟩ := e
  simp only [mk.injEq, Before]
  omega

end Date

/-- A second of a date. -/
structure Moment where
  date : Date
  hour : ℕ
  minute : ℕ
  second : ℕ
  hour_lt : hour < 24
  minute_lt : minute < 60
  second_lt : second < 60

namespace Moment

/-- Seconds since the year 0 began. -/
def seconds (m : Moment) : ℕ :=
  m.date.number * 86400 + m.hour * 3600 + m.minute * 60 + m.second

/-- The later moment is so in the order of the fields. -/
theorem fields_of_seconds_lt {m n : Moment} (h : m.seconds < n.seconds) :
    m.date.Before n.date ∨ m.date = n.date ∧ (m.hour < n.hour ∨ m.hour = n.hour ∧
      (m.minute < n.minute ∨ m.minute = n.minute ∧ m.second < n.second)) := by
  have hm := And.intro m.minute_lt m.second_lt
  have hn := And.intro n.minute_lt n.second_lt
  have hmHour := m.hour_lt
  have hnHour := n.hour_lt
  rw [seconds, seconds] at h
  rcases Date.trichotomy m.date n.date with hsame | hbefore | hafter
  · refine .inr ⟨hsame, ?_⟩
    rw [hsame] at h
    omega
  · exact .inl hbefore
  · have hnumber := hafter.number_lt
    omega

end Moment

end Calendar
