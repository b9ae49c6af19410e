import RequestLog.Proofs.Instant.Calendar

/-!
# The date of a day

A day is turned into a date by way of the era it lies in. An era is four centuries of 36524
days, a century is 25 times four years of 1461 days, and these are four years of 365 days;
what is left over at the end of each is the leap day that it has more (`EraDay`). With these
parts the year is found without looking at any other year, and a date is found that exists
(`ofDays_exists`), lies in the year that the day lies in, and is that of the day
(`toDays_ofDays`).
-/

namespace RequestLog.Instant

/-! ## Days of an era -/

/-- A day of an era: its century, its four years in the century, its year in these, and its
day in the year. Years begin in March here. -/
structure EraDay (day century four year rest : Int) : Prop where
  sum : day = 36524 * century + 1461 * four + 365 * year + rest
  century_nonneg : 0 ≤ century
  century_le : century ≤ 3
  four_nonneg : 0 ≤ four
  four_le : four ≤ 24
  year_nonneg : 0 ≤ year
  year_le : year ≤ 3
  rest_nonneg : 0 ≤ rest
  rest_le : rest ≤ 364 + if year = 3 ∧ (four ≠ 24 ∨ century = 3) then 1 else 0

theorem exists_eraDay {day : Int} (h : 0 ≤ day) (hend : day < 146097) :
    ∃ century four year rest, EraDay day century four year rest := by
  obtain ⟨c, hc⟩ : ∃ c, c = min (day / 36524) 3 := ⟨_, rfl⟩
  obtain ⟨q, hq⟩ : ∃ q, q = (day - 36524 * c) / 1461 := ⟨_, rfl⟩
  obtain ⟨s, hs⟩ : ∃ s, s = min ((day - 36524 * c - 1461 * q) / 365) 3 := ⟨_, rfl⟩
  have hcentury : 0 ≤ c ∧ c ≤ 3 := by omega
  have hfour : 0 ≤ q ∧ q ≤ 24 := by omega
  refine ⟨c, q, s, day - 36524 * c - 1461 * q - 365 * s, ?_⟩
  constructor
  all_goals try split
  all_goals omega

theorem yearOfEra_eq {day c q s r : Int} (h : EraDay day c q s r) :
   (day - day / 1460 + day / 36524 - day / 146096) / 365 = 100 * c + 4 * q + s := by
  obtain ⟨hsum, hc, hc', hq, hq', hs, hs', hr, hr'⟩ := h
  have h1 : day / 36524 - day / 146096 = c := by
    obtain rfl | rfl | rfl | rfl : c = 0 ∨ c = 1 ∨ c = 2 ∨ c = 3 := by omega
    all_goals split at hr'
    all_goals omega
  have h2 : day / 1460 = 25 * c + q + (24 * c + q + 365 * s + r) / 1460 := by omega
  split at hr'
  · omega
  · omega

/-! ## Dates of days -/

/-- The month that a day of the year lies in, counted from March. -/
theorem daysBeforeMonth_le (n : Nat) : daysBeforeMonth ((5 * n + 2) / 153) ≤ n := by
  rw [daysBeforeMonth]
  omega

theorem lt_daysBeforeMonth (n : Nat) : n < daysBeforeMonth ((5 * n + 2) / 153 + 1) := by
  rw [daysBeforeMonth]
  omega

/-- The month of a year, January being its first, that is some months behind March. -/
def monthFrom (k : Nat) : Nat := if k < 10 then k + 3 else k - 9

theorem monthFrom_bounds {k : Nat} (h : k ≤ 11) :
    1 ≤ monthFrom k ∧ monthFrom k ≤ 12 ∧ monthOfYear (monthFrom k) = k := by
  rw [monthFrom, monthOfYear]
  split
  · omega
  · omega

/-- A month is as long as it takes to the next, but for February, which takes what is left
of the year. -/
theorem daysInMonth_monthFrom {k : Nat} (h : k ≤ 11) (year : Int) :
    daysInMonth year (monthFrom k) =
      if k = 11 then (if isLeapYear year then 29 else 28)
      else daysBeforeMonth (k + 1) - daysBeforeMonth k := by
  interval_cases k <;> rfl

/-- The days of an era before one of its years. -/
theorem EraDay.rest_eq {day c q s r : Int} (h : EraDay day c q s r) :
    day - (365 * (100 * c + 4 * q + s) + (100 * c + 4 * q + s) / 4 -
      (100 * c + 4 * q + s) / 100) = r := by
  obtain ⟨hsum, hc, hc', hq, hq', hs, hs', -, -⟩ := h
  have hfour : (100 * c + 4 * q + s) / 4 = 25 * c + q := by omega
  have hhundred : (100 * c + 4 * q + s) / 100 = c := by omega
  rw [hfour, hhundred]
  omega

theorem ofDays_eq {days c q s r : Int}
    (h : EraDay ((days + epochOffset) % daysPerEra) c q s r) :
    Date.ofDays days =
      ⟨100 * c + 4 * q + s + (days + epochOffset) / daysPerEra * 400 +
        (if monthFrom ((5 * r.toNat + 2) / 153) ≤ 2 then 1 else 0),
        monthFrom ((5 * r.toNat + 2) / 153),
        r.toNat - daysBeforeMonth ((5 * r.toNat + 2) / 153) + 1⟩ := by
  have hyear := yearOfEra_eq h
  have hrest := h.rest_eq
  simp only [Date.ofDays, hyear, hrest, monthFrom]
  rfl

/-- The parts that a date is made of: the year of the era, the month behind March, and the
day of the year. -/
theorem ofDays_parts (days : Int) :
    ∃ (c q s : Int) (n k : Nat), EraDay ((days + epochOffset) % daysPerEra) c q s n ∧
      k ≤ 11 ∧ daysBeforeMonth k ≤ n ∧ n < daysBeforeMonth (k + 1) ∧
      Date.ofDays days =
        ⟨100 * c + 4 * q + s + (days + epochOffset) / daysPerEra * 400 +
          (if monthFrom k ≤ 2 then 1 else 0), monthFrom k, n - daysBeforeMonth k + 1⟩ := by
  obtain ⟨c, q, s, r, h⟩ := exists_eraDay (Int.emod_nonneg (days + epochOffset)
    (by decide : daysPerEra ≠ 0)) (Int.emod_lt_of_pos _ (by decide : 0 < daysPerEra))
  obtain ⟨n, rfl⟩ := Int.eq_ofNat_of_zero_le h.rest_nonneg
  have hn : n ≤ 365 := by
    have hle := h.rest_le
    split at hle <;> omega
  exact ⟨c, q, s, n, (5 * n + 2) / 153, h, by omega, daysBeforeMonth_le n,
    lt_daysBeforeMonth n, ofDays_eq h⟩

/-- The leap day ends a year that begins in March of the year before. -/
theorem isLeapYear_eraYear {c q s : Int} (hc : 0 ≤ c) (hc' : c ≤ 3) (hq : 0 ≤ q)
    (hq' : q ≤ 24) (hs : 0 ≤ s) (hs' : s ≤ 3) (era : Int) :
    isLeapYear (100 * c + 4 * q + s + era * 400 + 1) = true ↔
      s = 3 ∧ (q ≠ 24 ∨ c = 3) := by
  simp only [isLeapYear, Bool.and_eq_true, Bool.or_eq_true, decide_eq_true_eq]
  omega

theorem ofDays_exists (days : Int) : (Date.ofDays days).exists = true := by
  obtain ⟨c, q, s, n, k, h, hk, hle, hlt, hdate⟩ := ofDays_parts days
  obtain ⟨hmonth, htwelve, -⟩ := monthFrom_bounds hk
  have hlength : n - daysBeforeMonth k + 1 ≤ daysInMonth (Date.ofDays days).year (monthFrom k) := by
    rw [daysInMonth_monthFrom hk]
    split
    · next hlast =>
        subst hlast
        have hdays : daysBeforeMonth 11 = 337 := rfl
        have hrest := h.rest_le
        have hleap := isLeapYear_eraYear h.century_nonneg h.century_le h.four_nonneg
          h.four_le h.year_nonneg h.year_le ((days + epochOffset) / daysPerEra)
        rw [hdate, hdays]
        change _ ≤ if isLeapYear (100 * c + 4 * q + s + _ * 400 + 1) = true then 29 else 28
        split at hrest
        · next hyear => rw [if_pos (hleap.2 hyear)]; omega
        · split <;> omega
    · omega
  rw [hdate] at hlength ⊢
  simp only [Date.exists, Bool.and_eq_true, decide_eq_true_eq]
  exact ⟨⟨⟨hmonth, htwelve⟩, Nat.succ_pos _⟩, hlength⟩

theorem toDays_ofDays (days : Int) : (Date.ofDays days).toDays = days := by
  obtain ⟨c, q, s, n, k, h, hk, hle, hlt, hdate⟩ := ofDays_parts days
  obtain ⟨-, -, hmonth⟩ := monthFrom_bounds hk
  have hrest := h.rest_eq
  have hmarch : (if monthFrom k ≤ 2 then
      100 * c + 4 * q + s + (days + epochOffset) / daysPerEra * 400 +
        (if monthFrom k ≤ 2 then 1 else 0) - 1
      else 100 * c + 4 * q + s + (days + epochOffset) / daysPerEra * 400 +
        (if monthFrom k ≤ 2 then 1 else 0)) =
      100 * c + 4 * q + s + (days + epochOffset) / daysPerEra * 400 := by
    split <;> omega
  have hera : (100 * c + 4 * q + s + (days + epochOffset) / daysPerEra * 400) / 400 =
      (days + epochOffset) / daysPerEra := by
    obtain ⟨-, hc, hc', hq, hq', hs, hs', -, -⟩ := h
    omega
  have hyear : (100 * c + 4 * q + s + (days + epochOffset) / daysPerEra * 400) % 400 =
      100 * c + 4 * q + s := by
    obtain ⟨-, hc, hc', hq, hq', hs, hs', -, -⟩ := h
    omega
  have hdays := Int.emod_add_mul_ediv (days + epochOffset) daysPerEra
  rw [hdate]
  simp only [Date.toDays, hmarch, hmonth, hera, hyear]
  rw [Int.mul_comm] at hdays
  omega

/-- The year from January on begins 306 days behind the one from March on. -/
theorem monthFrom_le_two {k n : Nat} (hk : k ≤ 11) (hle : daysBeforeMonth k ≤ n)
    (hlt : n < daysBeforeMonth (k + 1)) : monthFrom k ≤ 2 ↔ 306 ≤ n := by
  rw [daysBeforeMonth] at hle hlt
  rw [monthFrom]
  split <;> omega

/-- The days of the years that have four digits. -/
theorem ofDays_year {days : Int} (h : -719528 ≤ days) (hend : days < 2932897) :
    0 ≤ (Date.ofDays days).year ∧ (Date.ofDays days).year < 10000 := by
  obtain ⟨c, q, s, n, k, hday, hk, hle, hlt, hdate⟩ := ofDays_parts days
  have hjanuary := monthFrom_le_two hk hle hlt
  obtain ⟨hsum, hc, hc', hq, hq', hs, hs', hr, hr'⟩ := hday
  have hn : n ≤ 365 := by split at hr' <;> omega
  rw [epochOffset, daysPerEra] at *
  rw [hdate]
  simp only [hjanuary]
  clear hr' hk hle hlt hdate hjanuary
  obtain hera | hera | hera : (days + 719468) / 146097 = -1 ∨
      (0 ≤ (days + 719468) / 146097 ∧ (days + 719468) / 146097 ≤ 23) ∨
      (days + 719468) / 146097 = 24 := by omega
  all_goals split <;> omega

end RequestLog.Instant
