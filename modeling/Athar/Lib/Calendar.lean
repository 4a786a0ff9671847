import Mathlib.Algebra.BigOperators.Intervals
import Mathlib.Algebra.Order.BigOperators.Group.Finset
import Mathlib.Tactic.IntervalCases
import Athar.Lib.Digits

/-!
This module contains the proleptic Gregorian calendar, counted in days and in seconds from the start of
the year 0, without leap seconds. Dates are ordered like their fields, and counted from March on, where
a leap day ends its year, the days of the years and of the months before have a closed form.
-/

namespace Calendar

def IsLeap (year : ℕ) : Prop :=
  4 ∣ year ∧ (¬100 ∣ year ∨ 400 ∣ year)

instance (year : ℕ) : Decidable (IsLeap year) :=
  inferInstanceAs (Decidable (_ ∧ _))

def leapDays (year : ℕ) : ℕ :=
  if IsLeap year then 1 else 0

theorem leapDays_le (year : ℕ) : leapDays year ≤ 1 := by
  unfold leapDays
  split <;> decide

def yearLength (year : ℕ) : ℕ :=
  365 + leapDays year

def monthLength (year : ℕ) : ℕ → ℕ
  | 2 => 28 + leapDays year
  | 4 | 6 | 9 | 11 => 30
  | _ => 31

theorem monthLength_le (year month : ℕ) : monthLength year month ≤ 31 := by
  have hleap := leapDays_le year
  unfold monthLength
  split <;> omega

theorem yearLength_le (year : ℕ) : yearLength year ≤ 366 :=
  Nat.add_le_add_left (leapDays_le year) 365

@[ext]
structure Date where
  year : ℕ
  month : ℕ
  day : ℕ
  one_le_month : 1 ≤ month
  month_le : month ≤ 12
  one_le_day : 1 ≤ day
  day_le : day ≤ monthLength year month
  deriving DecidableEq, Repr

@[ext]
structure DateTime extends Date where
  hour : ℕ
  minute : ℕ
  second : ℕ
  hour_lt : hour < 24
  minute_lt : minute < 60
  second_lt : second < 60
  deriving DecidableEq, Repr

def daysBeforeYear (year : ℕ) : ℕ :=
  ∑ y ∈ Finset.range year, yearLength y

def daysBeforeMonth (year month : ℕ) : ℕ :=
  ∑ m ∈ Finset.Ico 1 month, monthLength year m

-- The days of the year before the date.
def Date.dayOfYear (date : Date) : ℕ :=
  daysBeforeMonth date.year date.month + (date.day - 1)

-- The days from the first of January of the year 0.
def Date.dayNumber (date : Date) : ℕ :=
  daysBeforeYear date.year + date.dayOfYear

def Date.fields (date : Date) : List ℕ :=
  [date.year, date.month, date.day]

def DateTime.secondOfDay (t : DateTime) : ℕ :=
  t.hour * 3600 + t.minute * 60 + t.second

def DateTime.seconds (t : DateTime) : ℕ :=
  t.dayNumber * 86400 + t.secondOfDay

def DateTime.time (t : DateTime) : List ℕ :=
  [t.hour, t.minute, t.second]

def DateTime.fields (t : DateTime) : List ℕ :=
  t.toDate.fields ++ t.time

-- The start of the epoch of Unix.
def epoch : DateTime where
  year := 1970
  month := 1
  day := 1
  one_le_month := by decide
  month_le := by decide
  one_le_day := by decide
  day_le := by decide
  hour := 0
  minute := 0
  second := 0
  hour_lt := by decide
  minute_lt := by decide
  second_lt := by decide

section Order

-- Positions in consecutive blocks are ordered by their block first.
theorem add_lt_add_iff_of_block {start : ℕ → ℕ} (hstart : Monotone start) {a b x y : ℕ}
    (hx : start a + x < start (a + 1)) (hy : start b + y < start (b + 1))
    : start a + x < start b + y ↔ a < b ∨ a = b ∧ x < y := by
  cases Nat.lt_trichotomy a b with
  | inl hlt =>
    have hnext : start (a + 1) ≤ start b := hstart hlt
    omega
  | inr hge =>
    cases hge with
    | inl heq =>
      subst heq
      omega
    | inr hgt =>
      have hnext : start (b + 1) ≤ start a := hstart hgt
      omega

theorem daysBeforeYear_succ (year : ℕ)
    : daysBeforeYear (year + 1) = daysBeforeYear year + yearLength year :=
  Finset.sum_range_succ yearLength year

theorem monotone_daysBeforeYear : Monotone daysBeforeYear := by
  apply monotone_nat_of_le_succ
  intro year
  simp [daysBeforeYear_succ]

theorem daysBeforeMonth_succ (year : ℕ) {month : ℕ} (h : 1 ≤ month)
    : daysBeforeMonth year (month + 1) = daysBeforeMonth year month + monthLength year month :=
  Finset.sum_Ico_succ_top h (monthLength year)

theorem monotone_daysBeforeMonth (year : ℕ) : Monotone (daysBeforeMonth year) := by
  intro m n h
  exact Finset.sum_le_sum_of_subset (Finset.Ico_subset_Ico_right h)

-- The months fill the year.
theorem daysBeforeMonth_thirteen (year : ℕ) : daysBeforeMonth year 13 = yearLength year := by
  simp [daysBeforeMonth, Finset.sum_Ico_succ_top, monthLength, yearLength]
  omega

theorem Date.dayOfYear_lt_month (date : Date)
    : date.dayOfYear < daysBeforeMonth date.year (date.month + 1) := by
  have hday := date.one_le_day
  have hle := date.day_le
  rw [dayOfYear, daysBeforeMonth_succ date.year date.one_le_month]
  omega

theorem Date.dayOfYear_lt (date : Date) : date.dayOfYear < yearLength date.year := by
  have hmonth : daysBeforeMonth date.year (date.month + 1) ≤ daysBeforeMonth date.year 13 :=
    monotone_daysBeforeMonth date.year (Nat.succ_le_succ date.month_le)
  rw [daysBeforeMonth_thirteen] at hmonth
  exact Nat.lt_of_lt_of_le date.dayOfYear_lt_month hmonth

theorem Date.dayNumber_lt (date : Date) : date.dayNumber < daysBeforeYear (date.year + 1) := by
  rw [dayNumber, daysBeforeYear_succ]
  exact Nat.add_lt_add_left date.dayOfYear_lt _

theorem Date.dayOfYear_lt_iff {d e : Date} (h : d.year = e.year)
    : d.dayOfYear < e.dayOfYear ↔ d.month < e.month ∨ d.month = e.month ∧ d.day < e.day := by
  have hd := d.dayOfYear_lt_month
  have hd' := d.one_le_day
  have he' := e.one_le_day
  have hday : d.day < e.day ↔ d.day - 1 < e.day - 1 := by omega
  rw [h] at hd
  rw [dayOfYear, dayOfYear, h, hday]
  rw [dayOfYear, h] at hd
  exact add_lt_add_iff_of_block (monotone_daysBeforeMonth e.year) hd e.dayOfYear_lt_month

theorem Date.dayNumber_lt_iff (d e : Date) : d.dayNumber < e.dayNumber ↔ d.fields < e.fields := by
  have hyear : d.dayNumber < e.dayNumber ↔ d.year < e.year ∨ d.year = e.year ∧ d.dayOfYear < e.dayOfYear :=
    add_lt_add_iff_of_block monotone_daysBeforeYear d.dayNumber_lt e.dayNumber_lt
  rw [hyear, and_congr_right dayOfYear_lt_iff]
  simp [fields, List.cons_lt_cons_iff]

theorem Date.dayNumber_eq_iff (d e : Date) : d.dayNumber = e.dayNumber ↔ d.fields = e.fields := by
  apply Digits.eq_iff_of_lt_iff
  . exact dayNumber_lt_iff d e
  . exact dayNumber_lt_iff e d

theorem DateTime.secondOfDay_lt (t : DateTime) : t.secondOfDay < 86400 := by
  have hhour := t.hour_lt
  have hminute := t.minute_lt
  have hsecond := t.second_lt
  unfold secondOfDay
  omega

theorem DateTime.secondOfDay_lt_iff (t u : DateTime) : t.secondOfDay < u.secondOfDay ↔ t.time < u.time := by
  have ht := t.minute_lt
  have hu := u.minute_lt
  have ht' := t.second_lt
  have hu' := u.second_lt
  simp only [secondOfDay, time, List.cons_lt_cons_iff, List.lt_irrefl, and_false, or_false]
  omega

-- Dates and times are ordered like their fields.
theorem DateTime.seconds_lt_iff (t u : DateTime) : t.seconds < u.seconds ↔ t.fields < u.fields := by
  have ht := t.secondOfDay_lt
  have hu := u.secondOfDay_lt
  rw [fields, fields, Digits.append_lt_append_iff (by simp [Date.fields]), ← Date.dayNumber_lt_iff,
    ← Date.dayNumber_eq_iff, ← secondOfDay_lt_iff, seconds, seconds]
  omega

theorem DateTime.seconds_eq_iff (t u : DateTime) : t.seconds = u.seconds ↔ t.fields = u.fields := by
  apply Digits.eq_iff_of_lt_iff
  . exact seconds_lt_iff t u
  . exact seconds_lt_iff u t

theorem DateTime.seconds_inj {t u : DateTime} (h : t.seconds = u.seconds) : t = u := by
  rw [seconds_eq_iff] at h
  simpa [fields, Date.fields, time, DateTime.ext_iff, and_assoc] using h

end Order

section March

variable {year day month : ℕ}

-- The days from the first of March of the year 0 to the first of March of another year.
def marchDays (year : ℕ) : ℕ :=
  365 * year + year / 4 - year / 100 + year / 400

theorem leapDays_add (year : ℕ)
    : leapDays year + (if 100 ∣ year then 1 else 0)
      = (if 4 ∣ year then 1 else 0) + (if 400 ∣ year then 1 else 0) := by
  have h100 : 100 ∣ year → 4 ∣ year := Nat.dvd_trans (by decide)
  have h400 : 400 ∣ year → 100 ∣ year := Nat.dvd_trans (by decide)
  unfold leapDays IsLeap
  by_cases 4 ∣ year <;> by_cases 100 ∣ year <;> by_cases 400 ∣ year <;> simp_all

-- A leap day ends its year.
theorem marchDays_succ (year : ℕ) : marchDays (year + 1) = marchDays year + yearLength (year + 1) := by
  have hleap := leapDays_add (year + 1)
  have hle : (if 100 ∣ year + 1 then 1 else 0) ≤ 1 := by split <;> decide
  rw [marchDays, marchDays, yearLength, Nat.succ_div, Nat.succ_div, Nat.succ_div]
  omega

theorem marchDays_add (year era : ℕ) : marchDays (year + era * 400) = marchDays year + era * 146097 := by
  unfold marchDays
  omega

-- The calendar repeats after 400 years.
theorem yearLength_add (year era : ℕ) : yearLength (year + era * 400) = yearLength year := by
  have h : IsLeap (year + era * 400) ↔ IsLeap year := by
    unfold IsLeap
    omega
  simp only [yearLength, leapDays, h]

theorem daysBeforeYear_eq (year : ℕ) : daysBeforeYear (year + 1) = marchDays year + 366 := by
  induction year with
  | zero => rfl
  | succ year ih =>
    rw [daysBeforeYear_succ, ih, marchDays_succ]
    omega

theorem seconds_epoch : epoch.seconds = 719528 * 86400 := by
  have hyear : daysBeforeYear 1970 = 719528 := daysBeforeYear_eq 1969
  simp [DateTime.seconds, DateTime.secondOfDay, Date.dayNumber, Date.dayOfYear, daysBeforeMonth, epoch,
    hyear]

-- The days from the first of March to the first of a month, where March is the month 0.
def marchMonthDays (month : ℕ) : ℕ :=
  (153 * month + 2) / 5

theorem daysBeforeMonth_march (year : ℕ) (h : month < 10)
    : daysBeforeMonth year (month + 3) = 59 + leapDays year + marchMonthDays month := by
  interval_cases month
  all_goals
    simp [daysBeforeMonth, Finset.sum_Ico_succ_top, monthLength, marchMonthDays]
    omega

theorem monthLength_march (year : ℕ) (h : month < 10)
    : monthLength year (month + 3) = marchMonthDays (month + 1) - marchMonthDays month := by
  interval_cases month <;> rfl

-- The month that a day is in, counted from March on.
def marchMonth (day : ℕ) : ℕ :=
  (5 * day + 2) / 153

theorem marchMonthDays_le (day : ℕ) : marchMonthDays (marchMonth day) ≤ day := by
  unfold marchMonthDays marchMonth
  omega

theorem lt_marchMonthDays (day : ℕ) : day < marchMonthDays (marchMonth day + 1) := by
  unfold marchMonthDays marchMonth
  omega

theorem marchMonth_lt (h : day < yearLength year) : marchMonth day < 12 := by
  have hleap := leapDays_le year
  unfold yearLength at h
  unfold marchMonth
  omega

-- The date that is some days after the first of March, and before the next year.
def ofMarch (year day : ℕ) (h : marchMonth day < 10) : Date where
  year := year
  month := marchMonth day + 3
  day := day - marchMonthDays (marchMonth day) + 1
  one_le_month := by omega
  month_le := by omega
  one_le_day := by omega
  day_le := by
    have hle := marchMonthDays_le day
    have hlt := lt_marchMonthDays day
    rw [monthLength_march year h]
    omega

theorem dayNumber_ofMarch (h : marchMonth day < 10)
    : (ofMarch year day h).dayNumber = marchDays year + 60 + day := by
  have hle := marchMonthDays_le day
  have hyear := daysBeforeYear_eq year
  rw [daysBeforeYear_succ, yearLength] at hyear
  have hmonth := daysBeforeMonth_march year h
  simp only [Date.dayNumber, Date.dayOfYear, ofMarch, hmonth]
  omega

-- The date that is some days after the first of March, in January or February of the next year.
def ofMarchNext (year day : ℕ) (hday : day < yearLength (year + 1)) (h : 10 ≤ marchMonth day) : Date where
  year := year + 1
  month := marchMonth day - 9
  day := day - marchMonthDays (marchMonth day) + 1
  one_le_month := by omega
  month_le := by
    have hmonth := marchMonth_lt hday
    omega
  one_le_day := by omega
  day_le := by
    have hmonth := marchMonth_lt hday
    have hlt := lt_marchMonthDays day
    unfold yearLength at hday
    have hcases : marchMonth day = 10 ∨ marchMonth day = 11 := by omega
    cases hcases
    all_goals
      next heq =>
        rw [heq] at hlt ⊢
        simp only [monthLength, marchMonthDays] at hlt ⊢
        omega

theorem dayNumber_ofMarchNext (hday : day < yearLength (year + 1)) (h : 10 ≤ marchMonth day)
    : (ofMarchNext year day hday h).dayNumber = marchDays year + 60 + day := by
  have hle := marchMonthDays_le day
  have hmonth := marchMonth_lt hday
  have hyear := daysBeforeYear_eq year
  have hcases : marchMonth day = 10 ∨ marchMonth day = 11 := by omega
  simp only [Date.dayNumber, Date.dayOfYear, ofMarchNext]
  cases hcases
  all_goals
    next heq =>
      rw [heq] at hle ⊢
      simp [daysBeforeMonth, marchMonthDays, monthLength] at hle ⊢
      omega

end March

end Calendar
