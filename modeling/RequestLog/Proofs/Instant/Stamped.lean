import RequestLog.Proofs.Instant.Date
import RequestLog.Proofs.Instant.Written

/-!
# Instants as clocks show them

At every instant a clock shows a local date and time, and as long as its year has four digits
that is a stamp. It means the instant again (`clock_instant`), whatever the distance from
universal time moves over midnight, a month or a year.

An instant is printed as the clock of universal time shows it (`text_written`), with a
fraction of as many digits as are needed.
-/

namespace RequestLog.Instant

/-! ## Years of four digits -/

/-- The seconds of the years 0000 to 9999, a year beginning with its first of January. -/
def InYears (seconds : Int) : Prop :=
  dayNumber 0 1 1 * 86400 ≤ seconds ∧ seconds < dayNumber 10000 1 1 * 86400

theorem dayNumber_first : dayNumber 0 1 1 = -719528 := by
  simp only [dayNumber, daysOfYears_epoch]
  rfl

theorem dayNumber_end : dayNumber 10000 1 1 = 2932897 := by
  have hyears := daysOfYears_eq 10000
  simp only [dayNumber, daysOfYears_epoch, Nat.sub_self, daysOfMonths]
  omega

theorem InYears.date {seconds : Int} (h : InYears seconds) :
    0 ≤ (Date.ofDays (seconds / 86400)).year ∧ (Date.ofDays (seconds / 86400)).year < 10000 := by
  obtain ⟨hfirst, hend⟩ := h
  rw [dayNumber_first] at hfirst
  rw [dayNumber_end] at hend
  exact ofDays_year (by omega) (by omega)

/-! ## The fraction -/

/-- Digits of a fraction that lose nothing of some nanoseconds. -/
structure Spells (fraction : List Char) (nanos : Nat) : Prop where
  digits : ∀ c ∈ fraction, c.isDigit = true
  places : fraction.length ≤ 9
  value : Decimal.spelled fraction * 10 ^ (9 - fraction.length) = nanos

/-- A fraction that is printed in some columns. -/
theorem spells_padded {width n nanos : Nat} (hwidth : 0 < width) (hplaces : width ≤ 9)
    (hlt : n < 10 ^ width) (hvalue : n * 10 ^ (9 - width) = nanos) :
    ∃ fraction, Spells fraction nanos ∧
      '.' :: Decimal.padded width n = if fraction = [] then [] else '.' :: fraction := by
  have hlength := Decimal.length_padded hwidth hlt
  have hsome : Decimal.padded width n ≠ [] := by
    intro hnil
    rw [hnil, List.length_nil] at hlength
    omega
  refine ⟨Decimal.padded width n, ⟨Decimal.isDigit_padded, by omega, ?_⟩, (if_neg hsome).symm⟩
  rw [hlength, Decimal.spelled_padded, hvalue]

/-- The fraction that is printed has no more digits than it needs, and loses nothing. -/
theorem fractionText_spells {nanos : Nat} (h : nanos < 1000000000) :
    ∃ fraction, Spells fraction nanos ∧
      fractionText nanos = if fraction = [] then [] else '.' :: fraction := by
  unfold fractionText
  split
  · next hzero => exact ⟨[], ⟨nofun, Nat.zero_le 9, hzero.symm⟩, rfl⟩
  split
  · next hmillis => exact spells_padded (by decide) (by decide) (by omega) (by omega)
  split
  · next hmicros => exact spells_padded (by decide) (by decide) (by omega) (by omega)
  · exact spells_padded (by decide) (by decide) h (Nat.mul_one nanos)

/-! ## Clocks -/

/-- What a clock shows at some second of its own, in a zone and with a fraction. -/
def clock (seconds : Int) (zone : Zone) (hyears : InYears seconds) {fraction : List Char}
    {nanos : Nat} (hfraction : Spells fraction nanos) : Stamp where
  year := ⟨(Date.ofDays (seconds / 86400)).year.toNat, by
    obtain ⟨hfirst, hend⟩ := hyears.date
    omega⟩
  month := (Date.ofDays (seconds / 86400)).month
  day := (Date.ofDays (seconds / 86400)).day
  hour := ⟨(seconds % 86400).toNat / 3600, by omega⟩
  minute := ⟨(seconds % 86400).toNat / 60 % 60, Nat.mod_lt _ (by decide)⟩
  second := ⟨(seconds % 86400).toNat % 60, by omega⟩
  fraction := fraction
  zone := zone
  monthExists := by
    have hexists := ofDays_exists (seconds / 86400)
    simp only [Date.exists, Bool.and_eq_true, decide_eq_true_eq] at hexists
    exact hexists.1.1
  dayExists := by
    have hexists := ofDays_exists (seconds / 86400)
    simp only [Date.exists, Bool.and_eq_true, decide_eq_true_eq] at hexists
    rw [Int.toNat_of_nonneg hyears.date.1]
    exact ⟨hexists.1.2, hexists.2⟩
  digits := hfraction.digits
  places := hfraction.places

section

variable {seconds : Int} {zone : Zone} {fraction : List Char} {nanos : Nat}

theorem clock_instant (hyears : InYears seconds) (hfraction : Spells fraction nanos) :
    (clock seconds zone hyears hfraction).instant = ⟨seconds - zone.seconds, nanos⟩ := by
  obtain ⟨hmonth, htwelve⟩ := (clock seconds zone hyears hfraction).monthExists
  obtain ⟨hday, -⟩ := (clock seconds zone hyears hfraction).dayExists
  have hdays : dayNumber (clock seconds zone hyears hfraction).year
      (clock seconds zone hyears hfraction).month (clock seconds zone hyears hfraction).day =
        seconds / 86400 := by
    rw [← toDays_eq hmonth htwelve hday]
    show Date.toDays ⟨((Date.ofDays (seconds / 86400)).year.toNat : Int), _, _⟩ = _
    rw [Int.toNat_of_nonneg hyears.date.1]
    exact toDays_ofDays (seconds / 86400)
  have htime : ((clock seconds zone hyears hfraction).secondOfDay : Int) = seconds % 86400 := by
    simp only [Stamp.secondOfDay, clock]
    omega
  have hnanos : (clock seconds zone hyears hfraction).nanos = nanos := by
    have hordinary : (seconds % 86400).toNat % 60 ≠ 60 := by omega
    rw [Stamp.nanos]
    exact (congrArg _ (if_neg hordinary)).trans hfraction.value
  rw [Stamp.instant, hdays, htime, hnanos, Int.mul_comm, Int.mul_ediv_add_emod]
  rfl

/-- What is printed for an instant is what the clock shows that has its seconds. -/
theorem clock_chars (hyears : InYears seconds) (hfraction : Spells fraction nanos)
    (htext : fractionText nanos = if fraction = [] then [] else '.' :: fraction)
    (hnanos : nanos < 1000000000) :
    write 'T' ⟨seconds, nanos⟩ =
      (clock seconds zone hyears hfraction).dateChars ++
        'T' :: ((clock seconds zone hyears hfraction).timeChars ++
          (clock seconds zone hyears hfraction).fractionChars) := by
  obtain ⟨hfirst, hend⟩ := hyears.date
  have hyear : yearText (Date.ofDays (seconds / 86400)).year =
      Decimal.padded 4 (Date.ofDays (seconds / 86400)).year.toNat := by
    have habs : (Date.ofDays (seconds / 86400)).year.natAbs =
        (Date.ofDays (seconds / 86400)).year.toNat := by omega
    rw [yearText, if_pos (by simp; omega), habs]
  simp only [write, Nat.div_eq_of_lt hnanos, Nat.mod_eq_of_lt hnanos, Nat.add_zero, hyear, htext]
  simp only [Stamp.dateChars, Stamp.timeChars, Stamp.fractionChars, hourMinute, clock,
    List.append_assoc, List.cons_append]
  rfl

end

/-! ## Instants in a zone -/

theorem Zone.exists_written (zone : Zone) : ∃ cs, zone.Written cs := by
  cases zone with
  | utc => exact ⟨_, .zulu⟩
  | east hours minutes => exact ⟨_, .east hours minutes⟩
  | west hours minutes => exact ⟨_, .west hours minutes⟩

/-- In every zone there is a stamp that means the instant, as long as the year there has four
digits, and it can be written like the instant itself. -/
theorem exists_stamp {t : Instant} {zone : Zone} (hnanos : t.nanos < 1000000000)
    (hyears : InYears (t.seconds + zone.seconds)) :
    ∃ s : Stamp, s.zone = zone ∧ s.instant = t ∧
      ∀ cs, zone.Written cs → s.Written (write 'T' ⟨t.seconds + zone.seconds, t.nanos⟩ ++ cs) := by
  obtain ⟨fraction, hfraction, htext⟩ := fractionText_spells hnanos
  refine ⟨clock (t.seconds + zone.seconds) zone hyears hfraction, rfl, ?_, fun cs hzone => ?_⟩
  · rw [clock_instant, Int.add_sub_cancel]
  · rw [clock_chars hyears hfraction htext hnanos, List.append_assoc, List.cons_append,
      List.append_assoc]
    exact .mk (by decide) hzone

/-- What is printed for an instant is one of its writings. -/
theorem text_written {t : Instant} (hnanos : t.nanos < 1000000000) (hyears : InYears t.seconds) :
    ∃ s : Stamp, s.instant = t ∧ s.Written t.text.toList := by
  have hutc : InYears (t.seconds + Zone.utc.seconds) := by rwa [Zone.seconds, Int.add_zero]
  obtain ⟨s, -, hinstant, hwritten⟩ := exists_stamp hnanos hutc
  have hzulu := hwritten ['Z'] .zulu
  rw [Zone.seconds, Int.add_zero] at hzulu
  refine ⟨s, hinstant, ?_⟩
  rwa [text, String.toList_ofList]

end RequestLog.Instant
