import SeriesClient.Calendar
import Mathlib.Tactic

/-! The proleptic Gregorian calendar by its rules: which years leap, how long the months are. A date
is counted from the year 0, year by year and month by month, and the date of a day is the one that
has this count. -/
namespace SeriesClient

/-- Every fourth year, but of those that end a century only every fourth. -/
def IsLeap (year : Int) : Prop := 4 ∣ year ∧ (¬ 100 ∣ year ∨ 400 ∣ year)

instance (year : Int) : Decidable (IsLeap year) := inferInstanceAs (Decidable (_ ∧ _))

def yearLength (year : Int) : Nat := if IsLeap year then 366 else 365

def monthLength (year : Int) : (month : Nat) → Nat
  | 2 => if IsLeap year then 29 else 28
  | 4 | 6 | 9 | 11 => 30
  | _ => 31

/-- Days from the beginning of the year 0 to that of another. -/
def daysBeforeYear : (year : Nat) → Nat
  | 0 => 0
  | year + 1 => daysBeforeYear year + yearLength year

/-- Days from the beginning of a year to that of a month. -/
def daysBeforeMonth (year : Int) : (month : Nat) → Nat
  | 0 => 0
  | 1 => 0
  | month + 1 => daysBeforeMonth year month + monthLength year month

namespace Date

structure Valid (date : Date) : Prop where
  month : 1 ≤ date.month ∧ date.month ≤ 12
  day : 1 ≤ date.day ∧ date.day ≤ monthLength date.year date.month

instance (date : Date) : Decidable date.Valid :=
  decidable_of_iff
    ((1 ≤ date.month ∧ date.month ≤ 12) ∧
      1 ≤ date.day ∧ date.day ≤ monthLength date.year date.month)
    ⟨fun ⟨month, day⟩ => ⟨month, day⟩, fun valid => ⟨valid.month, valid.day⟩⟩

/-- Days from 1970-01-01 to a date that is not before the year 0. -/
def count (date : Date) : Int :=
  (daysBeforeYear date.year.toNat + daysBeforeMonth date.year date.month + (date.day - 1) : Nat)
    - daysBeforeYear 1970

end Date

/-- Rounded up, a part of the years grows by one with each multiple. -/
theorem parts_succ (year : Int) :
    (year + 4) / 4 = (year + 3) / 4 + (if 4 ∣ year then 1 else 0) ∧
    (year + 100) / 100 = (year + 99) / 100 + (if 100 ∣ year then 1 else 0) ∧
    (year + 400) / 400 = (year + 399) / 400 + (if 400 ∣ year then 1 else 0) := by
  refine ⟨?_, ?_, ?_⟩ <;> split <;> omega

theorem daysBeforeYear_eq (year : Nat) : (daysBeforeYear year : Int) =
    365 * year + (year + 3) / 4 - (year + 99) / 100 + (year + 399) / 400 := by
  induction year with
  | zero => rfl
  | succ year ih =>
    obtain ⟨quads, centuries, cycles⟩ := parts_succ year
    have length : (yearLength year : Int) = 365 + (if 4 ∣ (year : Int) then 1 else 0) -
        (if 100 ∣ (year : Int) then 1 else 0) + (if 400 ∣ (year : Int) then 1 else 0) := by
      by_cases leap : IsLeap year
      · rw [yearLength, if_pos leap]
        rw [IsLeap] at leap
        split_ifs <;> omega
      · rw [yearLength, if_neg leap]
        rw [IsLeap] at leap
        split_ifs <;> omega
    rw [daysBeforeYear, Nat.cast_add, ih, length, Nat.cast_succ, add_assoc (year : Int) 1 3,
      add_assoc (year : Int) 1 99, add_assoc (year : Int) 1 399]
    norm_num only
    rw [quads, centuries, cycles]
    ring

theorem daysBeforeYear_epoch : daysBeforeYear 1970 = 719528 := by
  have years := daysBeforeYear_eq 1970
  omega

/-- From March on the months have 153 days in every five; January and February come before them. -/
theorem daysBeforeMonth_eq (year : Int) {month : Nat} (within : 1 ≤ month ∧ month ≤ 12) :
    daysBeforeMonth year month =
      if month < 3 then (153 * (month + 9) + 2) / 5 - 306
      else (153 * (month - 3) + 2) / 5 + 59 + (if IsLeap year then 1 else 0) := by
  obtain ⟨low, high⟩ := within
  interval_cases month <;> simp [daysBeforeMonth, monthLength] <;> split <;> rfl

/-- A year counted from March is one day longer only before a leap year. -/
theorem yearOfCycle_leap (day : Nat) (h : day < 146097) (last : (yearOfCycle day).2 = 365) :
    IsLeap ((yearOfCycle day).1 + 1 : Nat) := by
  simp only [yearOfCycle] at last ⊢
  have centuries := nat_min_three (day / 36524)
  generalize (day / 36524).min 3 = c at *
  have century : 36524 * c ≤ day ∧ day - 36524 * c ≤ 36524 := by omega
  generalize rest : day - 36524 * c = dayOfCentury at *
  have years := nat_min_three (dayOfCentury % 1461 / 365)
  generalize (dayOfCentury % 1461 / 365).min 3 = y at *
  have fourth : y = 3 ∧ dayOfCentury % 1461 = 1460 := by omega
  obtain ⟨rfl, fourth⟩ := fourth
  have quads : dayOfCentury / 1461 ≤ 24 := by omega
  -- Only the last four years of a century end it, and they are this long in the last one only.
  rcases Nat.lt_or_eq_of_le quads with inner | ends
  · exact ⟨by omega, .inl (by omega)⟩
  · have cycle : c = 3 := by omega
    exact ⟨by omega, .inr (by omega)⟩

theorem monthOfYear_within (year : Int) (day : Nat) (bound : day ≤ 365)
    (leap : day = 365 → IsLeap (year + 1)) :
    ((monthOfYear day).1 < 10 →
      (monthOfYear day).2 < monthLength year ((monthOfYear day).1 + 3)) ∧
    (10 ≤ (monthOfYear day).1 →
      (monthOfYear day).2 < monthLength (year + 1) ((monthOfYear day).1 - 9)) := by
  simp only [monthOfYear]
  obtain ⟨m, month⟩ : ∃ m, (5 * day + 2) / 153 = m := ⟨_, rfl⟩
  have last : m ≤ 11 := by omega
  rw [month]
  constructor
  · intro spring
    interval_cases m <;> simp only [monthLength] <;> omega
  · intro winter
    by_cases long : IsLeap (year + 1)
    · interval_cases m <;> simp only [monthLength, if_pos long] <;> omega
    · have short : day ≠ 365 := mt leap long
      interval_cases m <;> simp only [monthLength, if_neg long] <;> omega

namespace Date

theorem valid_ofDays (days : Int) : (ofDays days).Valid := by
  have nonneg := Int.emod_nonneg (days + epochDay) (show (146097 : Int) ≠ 0 by decide)
  have bound := Int.emod_lt_of_pos (days + epochDay) (show (0 : Int) < 146097 by decide)
  have hyear := yearOfCycle_day ((days + epochDay) % 146097).toNat (by omega)
  have leap := yearOfCycle_leap ((days + epochDay) % 146097).toNat (by omega)
  simp only [ofDays]
  generalize (days + epochDay) / 146097 = cycle at *
  generalize yearOfCycle ((days + epochDay) % 146097).toNat = year at *
  have next : year.2 = 365 → IsLeap (400 * cycle + year.1 + 1) := by
    intro last
    have leap := leap last
    rw [IsLeap] at leap ⊢
    omega
  have within := monthOfYear_within (400 * cycle + year.1) year.2 hyear.2.1 next
  have hmonth := monthOfYear_day year.2 hyear.2.1
  generalize monthOfYear year.2 = month at *
  split
  · next spring =>
    refine ⟨⟨?_, ?_⟩, Nat.le_add_left 1 _, within.1 spring⟩ <;> dsimp only <;> omega
  · next winter =>
    refine ⟨⟨?_, ?_⟩, Nat.le_add_left 1 _, within.2 (Nat.le_of_not_lt winter)⟩ <;>
      dsimp only <;> omega

theorem toDays_eq_count {date : Date} (valid : date.Valid) (known : 0 ≤ date.year) :
    date.toDays = date.count := by
  have years := daysBeforeYear_eq date.year.toNat
  have months := daysBeforeMonth_eq date.year valid.month
  obtain ⟨⟨low, high⟩, first, -⟩ := valid
  rw [count, toDays, daysBeforeYear_epoch, months, epochDay]
  simp only [Nat.cast_add]
  rw [years]
  by_cases winter : date.month < 3
  · simp only [if_pos winter]
    omega
  · simp only [if_neg winter]
    by_cases leap : IsLeap date.year
    · rw [if_pos leap]
      rw [IsLeap] at leap
      omega
    · rw [if_neg leap]
      rw [IsLeap] at leap
      omega

theorem count_ofDays {days : Int} (known : 0 ≤ (ofDays days).year) :
    (ofDays days).count = days := by
  rw [← toDays_eq_count (valid_ofDays days) known, toDays_ofDays]

/-- Days up to a year, tight at the two years that follow on the last of four digits. -/
theorem leapDays_bounds (year : Int) :
    (year ≤ -1 → 365 * year + year / 4 - year / 100 + year / 400 ≤ -366) ∧
    (9999 ≤ year → 3652059 ≤ 365 * year + year / 4 - year / 100 + year / 400) ∧
    (10000 ≤ year → 3652425 ≤ 365 * year + year / 4 - year / 100 + year / 400) := by
  refine ⟨fun early => ?_, fun late => ?_, fun late => ?_⟩
  · rcases Int.lt_or_eq_of_le early with earlier | rfl <;> omega
  · rcases Int.lt_or_eq_of_le late with later | rfl <;> omega
  · rcases Int.lt_or_eq_of_le late with later | rfl <;> omega

theorem monthLength_le (year : Int) (month : Nat) : monthLength year month ≤ 31 := by
  rw [monthLength.eq_def]
  split <;> grind

/-- The days of the years from 0 to 9999. -/
theorem year_ofDays {days : Int} (within : -719528 ≤ days ∧ days ≤ 2932896) :
    0 ≤ (ofDays days).year ∧ (ofDays days).year ≤ 9999 := by
  have count := toDays_ofDays days
  obtain ⟨⟨low, high⟩, first, last⟩ := valid_ofDays days
  have short := last.trans (monthLength_le _ _)
  rw [toDays, epochDay] at count
  generalize ofDays days = date at *
  by_cases winter : date.month < 3
  · have leaps := leapDays_bounds (date.year - 1)
    simp only [if_pos winter] at count
    omega
  · have leaps := leapDays_bounds date.year
    simp only [if_neg winter] at count
    omega

end Date
end SeriesClient
