import RequestLog.Instant.Calendar
import Mathlib.Tactic.IntervalCases
import Mathlib.Tactic.Linarith

/-!
# Days counted year by year

A date is turned into days by eras, and by years that begin in March. Here they are counted
as a calendar is read: the days of the whole years, those of the whole months, and then those
of the month itself. Both counts are the same (`toDays_eq`), since the leap day that is the
last day of the one kind of year lies between February and March of the other.
-/

namespace RequestLog.Instant

/-- The days of the first months of a year. -/
def daysOfMonths (year : Nat) : Nat → Nat
  | 0 => 0
  | months + 1 => daysOfMonths year months + daysInMonth year (months + 1)

/-- The days of all years from year 0 on that come before. -/
def daysOfYears : Nat → Nat
  | 0 => 0
  | year + 1 => daysOfYears year + daysOfMonths year 12

/-- The days from the first of January 1970 to a day of a month. -/
def dayNumber (year month day : Nat) : Int :=
  (daysOfYears year + daysOfMonths year (month - 1) + (day - 1) : Nat) - (daysOfYears 1970 : Nat)

theorem isLeapYear_iff {year : Nat} :
    isLeapYear year = true ↔ year % 4 = 0 ∧ (year % 100 ≠ 0 ∨ year % 400 = 0) := by
  simp only [isLeapYear, Bool.and_eq_true, Bool.or_eq_true, decide_eq_true_eq]
  omega

theorem daysInMonth_le (year : Int) (month : Nat) : daysInMonth year month ≤ 31 := by
  unfold daysInMonth
  grind

/-- One day more from March on, if the year has one. -/
def leapDay (year : Nat) : Nat := if isLeapYear year then 1 else 0

theorem daysOfMonths_eq {year month : Nat} (hmonth : 1 ≤ month) (htwelve : month ≤ 12) :
    daysOfMonths year (month - 1) =
      if month ≤ 2 then 31 * (month - 1)
      else 59 + leapDay year + daysBeforeMonth (monthOfYear month) := by
  cases hleap : isLeapYear year <;> interval_cases month <;>
    simp [daysOfMonths, daysInMonth, daysBeforeMonth, monthOfYear, leapDay, hleap]

theorem daysOfMonths_twelve (year : Nat) : daysOfMonths year 12 = 365 + leapDay year := by
  cases hleap : isLeapYear year <;> simp [daysOfMonths, daysInMonth, leapDay, hleap]

/-- How many leap days there are up to a year, counted before and behind its own. -/
theorem leapDay_add (year : Nat) :
    leapDay year + (year + 3) / 4 + (year + 399) / 400 + year / 100 =
      1 + year / 4 + year / 400 + (year + 99) / 100 := by
  rw [leapDay]
  split
  · next hleap =>
      rw [isLeapYear_iff] at hleap
      omega
  · next hleap =>
      rw [isLeapYear_iff] at hleap
      omega

/-- Every fourth year has a leap day, but for the centuries that no 400 divides. -/
theorem daysOfYears_eq (year : Nat) :
    daysOfYears year + (year + 99) / 100 = 365 * year + (year + 3) / 4 + (year + 399) / 400 := by
  induction year with
  | zero => rfl
  | succ year ih =>
      have hleap := leapDay_add year
      have hnext : ∀ n, (year + 1 + n) / (n + 1) = year / (n + 1) + 1 := fun n => by
        rw [Nat.add_right_comm, Nat.add_assoc, Nat.add_div_right year (Nat.succ_pos n)]
      have hfour : (year + 1 + 3) / 4 = year / 4 + 1 := hnext 3
      have hhundred : (year + 1 + 99) / 100 = year / 100 + 1 := hnext 99
      have hera : (year + 1 + 399) / 400 = year / 400 + 1 := hnext 399
      rw [daysOfYears, daysOfMonths_twelve, hfour, hhundred, hera]
      linarith only [ih, hleap]

/-- Eras of 400 years, and the years within one, are the years. -/
theorem daysOfEras (year : Int) :
    year / 400 * daysPerEra + (year % 400 * 365 + year % 400 / 4 - year % 400 / 100) =
      365 * year + year / 4 - year / 100 + year / 400 := by
  rw [daysPerEra]
  omega

theorem daysOfYears_epoch : daysOfYears 1970 = 719528 :=
  Nat.add_right_cancel (daysOfYears_eq 1970)

theorem toDays_eq {year month day : Nat} (hmonth : 1 ≤ month) (htwelve : month ≤ 12)
    (hday : 1 ≤ day) : (Date.toDays ⟨year, month, day⟩) = dayNumber year month day := by
  have hyears := daysOfYears_eq year
  have hmarch : ∀ (y : Int) (k : Nat),
      y / 400 * daysPerEra + (y % 400 * 365 + y % 400 / 4 - y % 400 / 100 + (k + (day - 1 : Int)))
        - epochOffset = 365 * y + y / 4 - y / 100 + y / 400 + k + (day - 1 : Int) - 719468 := by
    intro y k
    have h := daysOfEras y
    rw [epochOffset]
    omega
  simp only [Date.toDays, dayNumber, daysOfYears_epoch, daysOfMonths_eq hmonth htwelve, hmarch]
  -- January and February are counted behind the March of the year before.
  by_cases hfebruary : month ≤ 2
  · have hmonths : (daysBeforeMonth (monthOfYear month) : Int) = 306 + 31 * (month - 1 : Nat) := by
      obtain rfl | rfl : month = 1 ∨ month = 2 := by omega
      · rfl
      · rfl
    have hfour : ((year : Int) - 1) / 4 = ((year + 3) / 4 : Nat) - 1 := by omega
    have hhundred : ((year : Int) - 1) / 100 = ((year + 99) / 100 : Nat) - 1 := by omega
    have hera : ((year : Int) - 1) / 400 = ((year + 399) / 400 : Nat) - 1 := by omega
    rw [if_pos hfebruary, if_pos hfebruary, hmonths, hfour, hhundred, hera]
    clear hmarch hfour hhundred hera
    generalize (year + 3) / 4 = a, (year + 99) / 100 = b, (year + 399) / 400 = c at *
    omega
  · rw [if_neg hfebruary, if_neg hfebruary]
    have hleap := leapDay_add year
    have hfour : (year : Int) / 4 = (year / 4 : Nat) := rfl
    have hhundred : (year : Int) / 100 = (year / 100 : Nat) := rfl
    have hera : (year : Int) / 400 = (year / 400 : Nat) := rfl
    rw [hfour, hhundred, hera]
    clear hmarch hfour hhundred hera
    generalize (year + 3) / 4 = a, (year + 99) / 100 = b, (year + 399) / 400 = c, year / 4 = d,
      year / 100 = e, year / 400 = f at *
    omega

end RequestLog.Instant
