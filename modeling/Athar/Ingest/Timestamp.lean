import Mathlib.Algebra.Order.Ring.Int
import Athar.Ingest.Impl.Timestamp
import Athar.Lib.Ascii
import Athar.Lib.Calendar

/-!
This module contains the exactness of the time stamps of the ingest. The date and time that they show
is the one of the calendar, and they are ordered like the times they stand for.
-/

namespace Athar.Timestamp

open Calendar

section Arithmetic

variable {α : Type} {x : ℤ} {f : ℤ → Option α}

theorem u64_bind (h : 0 ≤ x ∧ x < 2 ^ 64) : (u64 x >>= f) = f x := by
  rw [u64, checked, if_pos h]
  rfl

theorem i64_bind (h : -2 ^ 63 ≤ x ∧ x < 2 ^ 63) : (i64 x >>= f) = f x := by
  rw [i64, checked, if_pos h]
  rfl

theorem asU64_eq (h : 0 ≤ x ∧ x < 2 ^ 64) : asU64 x = x := by
  have h : (UInt64.ofInt x).toNat = (x % 2 ^ 64).toNat % 2 ^ 64 := rfl
  unfold asU64
  omega

theorem asI64_eq (h : -2 ^ 63 ≤ x ∧ x < 2 ^ 63) : asI64 x = x :=
  Int64.toInt_ofInt_of_le h.1 h.2

theorem toNat_asU32 {n : ℕ} (h : n < 2 ^ 32) : (asU32 n).toNat = n := by
  have h : (UInt32.ofInt n).toNat = (n % 2 ^ 32 : ℤ).toNat % 2 ^ 32 := rfl
  unfold asU32
  omega

end Arithmetic

section Year

variable {century cycle year day doe : ℕ}

-- A cycle of four years ends with a leap day, and the century with a shorter cycle unless it is the
-- last of its era.
theorem marchDays_le_and_lt (hcentury : century ≤ 3) (hcycle : cycle ≤ 24) (hyear : year ≤ 3)
    (hlow : 365 * year ≤ day) (hhigh : day < 365 * (year + 1) ∨ year = 3 ∧ day ≤ 1460)
    (hlast : 1461 * cycle + day < 36524)
    : marchDays (100 * century + 4 * cycle + year) ≤ 36524 * century + 1461 * cycle + day
      ∧ 36524 * century + 1461 * cycle + day < marchDays (100 * century + 4 * cycle + year + 1) := by
  generalize hy : 100 * century + 4 * cycle + year = y
  constructor
  . have hquarters : y / 4 = 25 * century + cycle := by omega
    have hcenturies : y / 100 = century := by omega
    unfold marchDays
    omega
  . have hquarters : (y + 1) / 4 = 25 * century + cycle + (year + 1) / 4 := by omega
    have hcenturies : (y + 1) / 100 = century + (4 * cycle + year + 1) / 100 := by omega
    unfold marchDays
    by_cases hend : cycle = 24 ∧ year = 3
    . obtain ⟨rfl, rfl⟩ := hend
      omega
    . have hsame : (4 * cycle + year + 1) / 100 = 0 := by omega
      by_cases hleap : year = 3
      . subst hleap
        omega
      . have hcommon : (year + 1) / 4 = 0 := by omega
        omega

def yearOfEra (doe : ℕ) : ℕ :=
  (doe - doe / 1460 + doe / 36524 - doe / 146096) / 365

theorem yearOfEra_eq (hcentury : century ≤ 3) (hcycle : cycle ≤ 24) (hday : day ≤ 1460)
    (hlast : 1461 * cycle + day < 36524)
    : yearOfEra (36524 * century + 1461 * cycle + day) = 100 * century + 4 * cycle + min 3 (day / 365) := by
  generalize hdoe : 36524 * century + 1461 * cycle + day = doe
  have hcenturies : doe / 36524 = century := by omega
  have heras : doe / 146096 = 0 := by omega
  have hcycles : doe / 1460 = 25 * century + cycle + (24 * century + cycle + day) / 1460 := by omega
  rw [yearOfEra, hcenturies, heras, hcycles]
  omega

-- The division is by the length of a common year, after the leap days are taken out.
theorem yearOfEra_bounds (h : doe < 146097)
    : marchDays (yearOfEra doe) ≤ doe ∧ doe < marchDays (yearOfEra doe + 1) ∧ yearOfEra doe < 400 := by
  by_cases hlast : doe = 146096
  . subst hlast
    decide
  . generalize hcentury : doe / 36524 = century
    generalize hcycle : doe % 36524 / 1461 = cycle
    generalize hday : doe % 36524 % 1461 = day
    have hdoe : doe = 36524 * century + 1461 * cycle + day := by omega
    have hyear : yearOfEra (36524 * century + 1461 * cycle + day)
        = 100 * century + 4 * cycle + min 3 (day / 365) := by
      apply yearOfEra_eq <;> omega
    have hbounds : marchDays (100 * century + 4 * cycle + min 3 (day / 365)) ≤ doe
        ∧ doe < marchDays (100 * century + 4 * cycle + min 3 (day / 365) + 1) := by
      rw [hdoe]
      apply marchDays_le_and_lt <;> omega
    rw [← hyear, ← hdoe] at hbounds
    refine ⟨hbounds.1, hbounds.2, ?_⟩
    rw [hdoe, hyear]
    omega

structure InYear (doe year : ℕ) : Prop where
  year_lt : year < 400
  le : marchDays year ≤ doe
  lt : doe - marchDays year < yearLength (year + 1)

theorem inYear_yearOfEra (h : doe < 146097) : InYear doe (yearOfEra doe) := by
  obtain ⟨hle, hlt, hyear⟩ := yearOfEra_bounds h
  rw [marchDays_succ] at hlt
  constructor <;> omega

theorem cast_yearOfEra (h : doe < 146097)
    : ((doe : ℤ) - doe / 1460 + doe / 36524 - doe / 146096) / 365 = yearOfEra doe := by
  unfold yearOfEra
  omega

theorem cast_marchMonth (doy : ℕ) : (5 * (doy : ℤ) + 2) / 153 = marchMonth doy := by
  unfold marchMonth
  omega

end Year

-- The steps of the conversion, without an overflow.
section Steps

variable {α : Type} {f : ℤ → Option α} {doe year doy : ℕ}

theorem yoe_bind (h : doe < 146097)
    : (do
        let a ← u64 (doe - doe / 1460)
        let b ← u64 (a + doe / 36524)
        u64 (b - doe / 146096) >>= f)
      = f (doe - doe / 1460 + doe / 36524 - doe / 146096) := by
  rw [u64_bind (by omega), u64_bind (by omega), u64_bind (by omega)]

theorem doy_bind (h : InYear doe year)
    : (do
        let a ← u64 (365 * year)
        let b ← u64 (a + year / 4)
        let c ← u64 (b - year / 100)
        u64 (doe - c) >>= f)
      = f (doe - marchDays year : ℕ) := by
  have hyear := h.year_lt
  have hle := h.le
  have hlt := h.lt
  have hlength := yearLength_le (year + 1)
  have heq : (doe : ℤ) - (365 * year + year / 4 - year / 100) = (doe - marchDays year : ℕ) := by
    unfold marchDays at *
    omega
  rw [u64_bind (by omega), u64_bind (by omega), u64_bind (by omega), heq, u64_bind (by omega)]

theorem mp_bind (h : doy < 366) : (u64 (5 * doy) >>= fun a => u64 (a + 2) >>= f) = f (5 * doy + 2) := by
  rw [u64_bind (by omega), u64_bind (by omega)]

theorem d_bind (h : doy < 366)
    : (do
        let a ← u64 (153 * marchMonth doy)
        let b ← u64 (a + 2)
        let c ← u64 (doy - b / 5)
        u64 (c + 1) >>= f)
      = f (doy - marchMonthDays (marchMonth doy) + 1 : ℕ) := by
  have hle := marchMonthDays_le doy
  have hmonth : marchMonth doy ≤ doy := by
    unfold marchMonth
    omega
  have heq : (doy : ℤ) - (153 * marchMonth doy + 2) / 5 + 1
      = (doy - marchMonthDays (marchMonth doy) + 1 : ℕ) := by
    unfold marchMonthDays at *
    omega
  rw [u64_bind (by omega), u64_bind (by omega), u64_bind (by omega), heq, u64_bind (by omega)]

end Steps

-- What is returned for a date.
def result (secs : UInt64) (year month day : ℕ) : Ymdhms where
  year := asU32 year
  month := asU32 month
  day := asU32 day
  hour := asU32 (secs % 86400).toNat / 3600
  min := asU32 (secs % 86400).toNat % 3600 / 60
  sec := asU32 (secs % 86400).toNat % 60

-- The conversion, with the year and the day counted from March on. No step of it overflows.
theorem unixToYmdhms_eq {secs : UInt64} {era doe yoe doy : ℕ}
    (hera : secs.toNat / 86400 + 719468 = era * 146097 + doe) (hdoe : doe < 146097)
    (hyoe : yoe = yearOfEra doe) (hdoy : doy = doe - marchDays yoe)
    : unixToYmdhms secs = some (result secs
        (if marchMonth doy < 10 then yoe + era * 400 else yoe + era * 400 + 1)
        (if marchMonth doy < 10 then marchMonth doy + 3 else marchMonth doy - 9)
        (doy - marchMonthDays (marchMonth doy) + 1)) := by
  have hyear := inYear_yearOfEra hdoe
  rw [← hyoe] at hyear
  have hyoelt := hyear.year_lt
  have hday := hyear.lt
  rw [← hdoy] at hday
  have hmonth := marchMonth_lt hday
  have hlength : doy < 366 := Nat.lt_of_lt_of_le hday (yearLength_le (yoe + 1))
  have hsecs := secs.toNat_lt
  have hdays : asI64 (secs / 86400).toNat + 719468 = (era * 146097 + doe : ℕ) := by
    have hdiv : (secs / 86400).toNat = secs.toNat / 86400 := rfl
    rw [hdiv, asI64_eq (by omega)]
    omega
  have hdiv : Int.tdiv (era * 146097 + doe : ℕ) 146097 = era := by
    rw [Int.tdiv_eq_ediv_of_nonneg] <;> omega
  have hrem : ((era * 146097 + doe : ℕ) : ℤ) - era * 146097 = doe := by omega
  rw [unixToYmdhms]
  dsimp only
  rw [hdays, i64_bind (by omega), if_pos (by omega), i64_bind (by omega), hdiv,
    i64_bind (by omega), i64_bind (by omega), hrem, asU64_eq (by omega), yoe_bind hdoe,
    cast_yearOfEra hdoe, ← hyoe, i64_bind (by omega), asI64_eq (by omega), i64_bind (by omega),
    doy_bind hyear, ← hdoy, mp_bind hlength, cast_marchMonth, d_bind hlength]
  generalize marchMonth doy = mp at *
  have hm : (if (mp : ℤ) < 10 then (mp : ℤ) + 3 else mp - 9)
      = (if mp < 10 then mp + 3 else mp - 9 : ℕ) := by
    split <;> split <;> omega
  have hy : (if ((if mp < 10 then mp + 3 else mp - 9 : ℕ) : ℤ) ≤ 2
      then (yoe : ℤ) + era * 400 + 1 else yoe + era * 400)
      = (if mp < 10 then yoe + era * 400 else yoe + era * 400 + 1 : ℕ) := by
    split <;> split at * <;> omega
  rw [hm, u64_bind (by split <;> omega), hy, i64_bind (by split <;> omega)]
  rfl

theorem exists_date (secs : UInt64)
    : ∃ date : Date, date.dayNumber = secs.toNat / 86400 + 719528
      ∧ unixToYmdhms secs = some (result secs date.year date.month date.day) := by
  have hera := (Nat.div_add_mod' (secs.toNat / 86400 + 719468) 146097).symm
  have hdoe : (secs.toNat / 86400 + 719468) % 146097 < 146097 := Nat.mod_lt _ (by decide)
  generalize (secs.toNat / 86400 + 719468) / 146097 = era at hera
  generalize (secs.toNat / 86400 + 719468) % 146097 = doe at hera hdoe
  have hyear := inYear_yearOfEra hdoe
  have heq := unixToYmdhms_eq hera hdoe rfl rfl
  generalize yearOfEra doe = yoe at hyear heq
  obtain ⟨doy, hdoy⟩ : ∃ doy, doe = marchDays yoe + doy := Nat.exists_eq_add_of_le hyear.le
  have hday := hyear.lt
  rw [hdoy, Nat.add_sub_cancel_left] at heq hday
  have hlength : yearLength (yoe + era * 400 + 1) = yearLength (yoe + 1) := by
    rw [Nat.add_right_comm, yearLength_add]
  rw [heq]
  by_cases h : marchMonth doy < 10
  . refine ⟨ofMarch (yoe + era * 400) doy h, ?_, ?_⟩
    . rw [dayNumber_ofMarch, marchDays_add]
      omega
    . simp only [if_pos h]
      rfl
  . refine ⟨ofMarchNext (yoe + era * 400) doy (by omega) (by omega), ?_, ?_⟩
    . rw [dayNumber_ofMarchNext, marchDays_add]
      omega
    . simp only [if_neg h]
      rfl

-- What is shown is the date and time.
structure Denotes (r : Ymdhms) (t : DateTime) : Prop where
  year : r.year.toNat = t.year
  month : r.month.toNat = t.month
  day : r.day.toNat = t.day
  hour : r.hour.toNat = t.hour
  min : r.min.toNat = t.minute
  sec : r.sec.toNat = t.second

theorem toNat_rem (secs : UInt64) : (asU32 (secs % 86400).toNat).toNat = secs.toNat % 86400 := by
  have hrem : (secs % 86400).toNat = secs.toNat % 86400 := rfl
  rw [hrem, toNat_asU32]
  omega

theorem exists_dateTime (secs : UInt64)
    : ∃ t : DateTime, t.seconds = epoch.seconds + secs.toNat
      ∧ ∃ r, unixToYmdhms secs = some r ∧ (t.year < 2 ^ 32 → Denotes r t) := by
  obtain ⟨date, hdate, heq⟩ := exists_date secs
  have hrem := toNat_rem secs
  unfold result at heq
  generalize asU32 (secs % 86400).toNat = rem at heq hrem
  have hmonth := date.month_le
  have hday := Nat.le_trans date.day_le (monthLength_le date.year date.month)
  let t : DateTime := {
    toDate := date
    hour := rem.toNat / 3600
    minute := rem.toNat % 3600 / 60
    second := rem.toNat % 60
    hour_lt := by omega
    minute_lt := by omega
    second_lt := by omega }
  refine ⟨t, ?_, _, heq, ?_⟩
  . rw [seconds_epoch, DateTime.seconds, DateTime.secondOfDay]
    dsimp only [t]
    omega
  . intro hyear
    constructor
    . exact toNat_asU32 hyear
    . apply toNat_asU32
      omega
    . apply toNat_asU32
      omega
    . rfl
    . rfl
    . rfl

section Format

variable {r : Ymdhms} {t u : DateTime} {micros : UInt32} {m k : ℕ}

def decimal (width n : ℕ) : List Char :=
  Digits.numeral Nat.digitChar 10 width n

def text (t : DateTime) (m : ℕ) : List Char :=
  decimal 4 t.year ++ '-' :: (decimal 2 t.month ++ '-' :: (decimal 2 t.day
    ++ 'T' :: (decimal 2 t.hour ++ ':' :: (decimal 2 t.minute ++ ':' :: (decimal 2 t.second
    ++ '.' :: (decimal 6 m ++ ['Z']))))))

theorem padded_eq {width : ℕ} {n : UInt32} (h : n.toNat < 10 ^ (width + 1))
    : padded (width + 1) n = decimal (width + 1) n.toNat :=
  Digits.leftpad_toDigits (by decide) h

theorem lt_hundred (t : DateTime)
    : t.month < 10 ^ 2 ∧ t.day < 10 ^ 2 ∧ t.hour < 10 ^ 2 ∧ t.minute < 10 ^ 2 ∧ t.second < 10 ^ 2 := by
  have hmonth := t.month_le
  have hday := Nat.le_trans t.day_le (monthLength_le t.year t.month)
  have hhour := t.hour_lt
  have hminute := t.minute_lt
  have hsecond := t.second_lt
  omega

theorem toList_format (h : Denotes r t) (hyear : t.year < 10 ^ 4) (hmicros : micros.toNat < 10 ^ 6)
    : (format r micros).toList = text t micros.toNat := by
  obtain ⟨hmonth, hday, hhour, hmin, hsec⟩ := lt_hundred t
  rw [← h.year] at hyear
  rw [← h.month] at hmonth
  rw [← h.day] at hday
  rw [← h.hour] at hhour
  rw [← h.min] at hmin
  rw [← h.sec] at hsec
  rw [format, String.toList_ofList, padded_eq hyear, padded_eq hmonth, padded_eq hday, padded_eq hhour,
    padded_eq hmin, padded_eq hsec, padded_eq hmicros, h.year, h.month, h.day, h.hour, h.min, h.sec]
  simp [text]

theorem isText_text (t : DateTime) (m : ℕ) : Ascii.IsText (text t m) := by
  have hdecimal : ∀ width n, Ascii.IsText (decimal width n) :=
    Ascii.isText_numeral (by decide) (by decide)
  simp [text, hdecimal]

theorem decimal_append_lt_iff {width n n' : ℕ} (hn : n < 10 ^ width) (hn' : n' < 10 ^ width) {ch : Char}
    {rest rest' : List Char}
    : decimal width n ++ ch :: rest < decimal width n' ++ ch :: rest' ↔ n < n' ∨ n = n' ∧ rest < rest' := by
  have hinc : Digits.Increasing 10 Nat.digitChar := Digits.increasing_digitChar (by decide)
  unfold decimal
  rw [Digits.numeral_append_lt_iff hinc (by decide) hn hn', List.cons_lt_cons_iff]
  simp

theorem text_lt_iff (ht : t.year < 10 ^ 4) (hu : u.year < 10 ^ 4) (hm : m < 10 ^ 6) (hk : k < 10 ^ 6)
    : text t m < text u k ↔ t.fields ++ [m] < u.fields ++ [k] := by
  obtain ⟨hmonth, hday, hhour, hminute, hsecond⟩ := lt_hundred t
  obtain ⟨hmonth', hday', hhour', hminute', hsecond'⟩ := lt_hundred u
  rw [text, text, decimal_append_lt_iff ht hu, decimal_append_lt_iff hmonth hmonth',
    decimal_append_lt_iff hday hday', decimal_append_lt_iff hhour hhour',
    decimal_append_lt_iff hminute hminute', decimal_append_lt_iff hsecond hsecond',
    decimal_append_lt_iff hm hk]
  simp [DateTime.fields, Date.fields, DateTime.time, List.cons_lt_cons_iff]

end Format

theorem subsecMicros_lt (now : Duration) : now.subsecMicros.toNat < 10 ^ 6 := by
  have hlt := UInt32.lt_iff_toNat_lt.mp now.nanos_lt
  have hdiv : now.subsecMicros.toNat = now.nanos.toNat / 1000 := rfl
  have hsecond : (1000000000 : UInt32).toNat = 1000000000 := rfl
  omega

theorem nowRfc3339_eq {reading : Option Duration} {t : DateTime}
    (ht : t.seconds = epoch.seconds + (Duration.sinceEpoch reading).secs.toNat) (hyear : t.year ≤ 9999)
    : ∃ s, nowRfc3339 reading = some s
      ∧ s.toList = text t (Duration.sinceEpoch reading).subsecMicros.toNat := by
  obtain ⟨u, hu, r, hr, hdenotes⟩ := exists_dateTime (Duration.sinceEpoch reading).secs
  have heq : u = t := DateTime.seconds_inj (hu.trans ht.symm)
  subst heq
  have hformat := toList_format (hdenotes (by omega)) (by omega)
    (subsecMicros_lt (Duration.sinceEpoch reading))
  refine ⟨_, ?_, hformat⟩
  rw [nowRfc3339, hr]
  rfl

example : nowRfc3339 (some ⟨951782400, 1000, by decide⟩) = some "2000-02-29T00:00:00.000001Z" := by
  decide +kernel

theorem timestamps_exact
    : (∀ secs : UInt64, ∃ t : DateTime,
        (∀ u : DateTime, u.seconds = epoch.seconds + secs.toNat ↔ u = t)
          ∧ ∃ r, unixToYmdhms secs = some r ∧ (t.year < 2 ^ 32 → Denotes r t))
      ∧ ∀ (reading reading' : Option Duration) (t t' : DateTime),
        t.seconds = epoch.seconds + (Duration.sinceEpoch reading).secs.toNat → t.year ≤ 9999 →
        t'.seconds = epoch.seconds + (Duration.sinceEpoch reading').secs.toNat → t'.year ≤ 9999 →
          ∃ s s', nowRfc3339 reading = some s ∧ nowRfc3339 reading' = some s'
            ∧ (s.toUTF8.data.toList < s'.toUTF8.data.toList
              ↔ (Duration.sinceEpoch reading).asMicros < (Duration.sinceEpoch reading').asMicros) := by
  constructor
  . intro secs
    obtain ⟨t, ht, hr⟩ := exists_dateTime secs
    refine ⟨t, ?_, hr⟩
    intro u
    constructor
    . intro hu
      exact DateTime.seconds_inj (hu.trans ht.symm)
    . intro heq
      rw [heq, ht]
  . intro reading reading' t t' ht hyear ht' hyear'
    obtain ⟨s, hs, htext⟩ := nowRfc3339_eq ht hyear
    obtain ⟨s', hs', htext'⟩ := nowRfc3339_eq ht' hyear'
    have hmicros := subsecMicros_lt (Duration.sinceEpoch reading)
    have hmicros' := subsecMicros_lt (Duration.sinceEpoch reading')
    refine ⟨s, s', hs, hs', ?_⟩
    rw [Ascii.bytes_lt_iff (by rw [htext]; exact isText_text _ _) (by rw [htext']; exact isText_text _ _),
      htext, htext', text_lt_iff (by omega) (by omega) hmicros hmicros',
      Digits.append_lt_append_iff (by simp [DateTime.fields, Date.fields, DateTime.time]),
      ← DateTime.seconds_lt_iff, ← DateTime.seconds_eq_iff, List.cons_lt_cons_iff]
    simp only [Duration.asMicros, List.lt_irrefl, and_false, or_false]
    omega

-- The first two seconds of the epoch.
theorem timestamps_exact_epoch
    : ∃ s s', nowRfc3339 none = some s ∧ nowRfc3339 (some ⟨1, 0, by decide⟩) = some s'
      ∧ s.toUTF8.data.toList < s'.toUTF8.data.toList := by
  let t : DateTime := { epoch with second := 1, second_lt := by decide }
  have hepoch : epoch.seconds = epoch.seconds + (Duration.sinceEpoch none).secs.toNat := by
    simp [Duration.sinceEpoch]
  have ht : t.seconds = epoch.seconds + 1 := by
    simp [t, DateTime.seconds, DateTime.secondOfDay, epoch]
  have hyear : epoch.year ≤ 9999 := by
    simp [epoch]
  obtain ⟨s, s', hs, hs', hlt⟩ :=
    timestamps_exact.2 none (some ⟨1, 0, by decide⟩) epoch t hepoch hyear ht hyear
  exact ⟨s, s', hs, hs', hlt.mpr (by decide)⟩

end Athar.Timestamp
