/-! Days as dates of the proleptic Gregorian calendar, and back. Years are counted from March
inside, so that a leap day is the last day of its year. -/
namespace SeriesClient

structure Date where
  year : Int
  month : Nat
  day : Nat
deriving DecidableEq, Repr

/-- Days from 0000-03-01 to 1970-01-01. -/
def epochDay : Int := 719468

/-- Year and day of the year within a cycle of 400 years that begins in March. Only the last year
of four, of a century and of the cycle may be one day longer, hence the bounds of three. -/
def yearOfCycle (day : Nat) : Nat × Nat :=
  let centuries := Nat.min (day / 36524) 3
  let dayOfCentury := day - 36524 * centuries
  let dayOfQuad := dayOfCentury % 1461
  let years := Nat.min (dayOfQuad / 365) 3
  (100 * centuries + 4 * (dayOfCentury / 1461) + years, dayOfQuad - 365 * years)

/-- Months from March and day of the month, both from zero. -/
def monthOfYear (day : Nat) : Nat × Nat :=
  let month := (5 * day + 2) / 153
  (month, day - (153 * month + 2) / 5)

/-- Date of the day that is `days` after 1970-01-01. -/
def Date.ofDays (days : Int) : Date :=
  let cycle := (days + epochDay) / 146097
  let (year, dayOfYear) := yearOfCycle ((days + epochDay) % 146097).toNat
  let (month, day) := monthOfYear dayOfYear
  if month < 10 then ⟨400 * cycle + year, month + 3, day + 1⟩
  else ⟨400 * cycle + year + 1, month - 9, day + 1⟩

/-- Days from 1970-01-01 to a date. -/
def Date.toDays (date : Date) : Int :=
  let year := if date.month < 3 then date.year - 1 else date.year
  let month := if date.month < 3 then date.month + 9 else date.month - 3
  365 * year + year / 4 - year / 100 + year / 400 + ((153 * month + 2) / 5 + (date.day - 1) : Nat)
    - epochDay

theorem nat_min_three (n : Nat) : n.min 3 ≤ n ∧ n.min 3 ≤ 3 ∧ (n.min 3 = n ∨ n.min 3 = 3) := by
  rcases Nat.le_total n 3 with h | h
  · rw [show n.min 3 = n from Nat.min_eq_left h]
    omega
  · rw [show n.min 3 = 3 from Nat.min_eq_right h]
    omega

theorem yearOfCycle_day (day : Nat) (h : day < 146097) :
    365 * (yearOfCycle day).1 + (yearOfCycle day).1 / 4 - (yearOfCycle day).1 / 100 +
      (yearOfCycle day).2 = day ∧ (yearOfCycle day).2 ≤ 365 ∧ (yearOfCycle day).1 < 400 := by
  simp only [yearOfCycle]
  have centuries := nat_min_three (day / 36524)
  generalize (day / 36524).min 3 = c at *
  have : 36524 * c ≤ day ∧ day - 36524 * c ≤ 36524 := by omega
  generalize rest : day - 36524 * c = dayOfCentury at *
  have years := nat_min_three (dayOfCentury % 1461 / 365)
  generalize (dayOfCentury % 1461 / 365).min 3 = y at *
  have quads : dayOfCentury / 1461 ≤ 24 := by omega
  have fours : (100 * c + 4 * (dayOfCentury / 1461) + y) / 4 = 25 * c + dayOfCentury / 1461 := by
    omega
  have hundreds : (100 * c + 4 * (dayOfCentury / 1461) + y) / 100 = c := by omega
  omega

theorem monthOfYear_day (day : Nat) (h : day ≤ 365) :
    (153 * (monthOfYear day).1 + 2) / 5 + (monthOfYear day).2 = day ∧
      (monthOfYear day).1 ≤ 11 := by
  simp only [monthOfYear]
  omega

/-- Leap days up to a year, split into those of whole cycles and those since. -/
theorem leapDays_cycle (cycle : Int) (year : Nat) (h : year < 400) :
    365 * (400 * cycle + year) + (400 * cycle + year) / 4 - (400 * cycle + year) / 100 +
      (400 * cycle + year) / 400 = 146097 * cycle + (365 * year + year / 4 - year / 100 : Nat) := by
  omega

theorem Date.toDays_ofDays (days : Int) : (Date.ofDays days).toDays = days := by
  have nonneg := Int.emod_nonneg (days + epochDay) (show (146097 : Int) ≠ 0 by decide)
  have bound := Int.emod_lt_of_pos (days + epochDay) (show (0 : Int) < 146097 by decide)
  have split := Int.mul_ediv_add_emod (days + epochDay) 146097
  have hyear := yearOfCycle_day ((days + epochDay) % 146097).toNat (by omega)
  have hmonth := monthOfYear_day (yearOfCycle ((days + epochDay) % 146097).toNat).2 hyear.2.1
  have leaps := leapDays_cycle ((days + epochDay) / 146097)
    (yearOfCycle ((days + epochDay) % 146097).toNat).1 hyear.2.2
  simp only [ofDays]
  generalize (days + epochDay) / 146097 = cycle at *
  generalize yearOfCycle ((days + epochDay) % 146097).toNat = year at *
  generalize monthOfYear year.2 = month at *
  split <;> simp only [toDays]
  · rw [if_neg (by omega), if_neg (by omega), Nat.add_sub_cancel, Nat.add_sub_cancel, leaps]
    omega
  · rw [if_pos (by omega), if_pos (by omega), Nat.add_sub_cancel, Int.add_sub_cancel,
      show month.1 - 9 + 9 = month.1 by omega, leaps]
    omega

end SeriesClient
