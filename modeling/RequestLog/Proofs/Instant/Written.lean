import RequestLog.Instant.Reader
import RequestLog.Proofs.Decimal.Digits
import RequestLog.Proofs.Instant.Calendar

/-!
# Instants as they are written

RFC 3339 writes an instant as a local date and time and what it is away from universal time.
Such a writing is a `Stamp`, which cannot hold a date or a time that does not exist. What
instant it means is said by counting days, hours, minutes and seconds, and it is what is read
from the text of the stamp (`read_of_written`). An instant has many stamps, one for every
distance, and a stamp several texts.
-/

namespace RequestLog.Instant

/-- What a clock is away from universal time. -/
inductive Zone where
  | utc
  | east (hours : Fin 24) (minutes : Fin 60)
  | west (hours : Fin 24) (minutes : Fin 60)

/-- A local date and time. Second 60 is a leap second. -/
structure Stamp where
  year : Fin 10000
  month : Nat
  day : Nat
  hour : Fin 24
  minute : Fin 60
  second : Fin 61
  /-- The digits of the fraction, or none if there is no fraction. -/
  fraction : List Char
  zone : Zone
  monthExists : 1 ≤ month ∧ month ≤ 12
  dayExists : 1 ≤ day ∧ day ≤ daysInMonth year month
  digits : ∀ c ∈ fraction, c.isDigit = true
  places : fraction.length ≤ 9

/-! ## What a stamp means -/

/-- Seconds east of universal time. -/
def Zone.seconds : Zone → Int
  | .utc => 0
  | .east hours minutes => (3600 * hours + 60 * minutes : Nat)
  | .west hours minutes => -(3600 * hours + 60 * minutes : Nat)

namespace Stamp

/-- Seconds of the local day; a leap second belongs to the one before it. -/
def secondOfDay (s : Stamp) : Nat := 3600 * s.hour + 60 * s.minute + min (s.second : Nat) 59

/-- Nanoseconds; those of a leap second go on behind those of the one before it. -/
def nanos (s : Stamp) : Nat :=
  Decimal.spelled s.fraction * 10 ^ (9 - s.fraction.length)
    + if (s.second : Nat) = 60 then 1000000000 else 0

def instant (s : Stamp) : Instant where
  seconds := dayNumber s.year s.month s.day * 86400 + s.secondOfDay - s.zone.seconds
  nanos := s.nanos

end Stamp

/-! ## How it is written -/

def hourMinute (hours minutes : Nat) : List Char :=
  Decimal.padded 2 hours ++ ':' :: Decimal.padded 2 minutes

inductive Zone.Written : Zone → List Char → Prop where
  | zulu : Zone.Written .utc ['Z']
  | lowercase : Zone.Written .utc ['z']
  | east (hours : Fin 24) (minutes : Fin 60) :
      Zone.Written (.east hours minutes) ('+' :: hourMinute hours minutes)
  | west (hours : Fin 24) (minutes : Fin 60) :
      Zone.Written (.west hours minutes) ('-' :: hourMinute hours minutes)

namespace Stamp

def dateChars (s : Stamp) : List Char :=
  Decimal.padded 4 s.year ++ '-' :: Decimal.padded 2 s.month ++ '-' :: Decimal.padded 2 s.day

def timeChars (s : Stamp) : List Char :=
  hourMinute s.hour s.minute ++ ':' :: Decimal.padded 2 s.second

def fractionChars (s : Stamp) : List Char :=
  if s.fraction = [] then [] else '.' :: s.fraction

inductive Written (s : Stamp) : List Char → Prop where
  | mk {separator : Char} {zone : List Char} : separator ∈ ['T', 't', ' '] →
      s.zone.Written zone →
      Written s (s.dateChars ++ separator :: (s.timeChars ++ (s.fractionChars ++ zone)))

end Stamp

/-- An instant as whole milliseconds since 1970; there are none in a leap second. -/
def IsMillis (t : Instant) (ms : Int) : Prop :=
  t.seconds * 1000000000 + t.nanos = ms * 1000000 ∧ t.nanos < 1000000000

/-! ## It is read back -/

/-- Milliseconds that name an instant name the one they were counted for. -/
theorem ofMillis_of_isMillis {t : Instant} {ms : Int} (h : t.IsMillis ms)
    (hlower : millisRange.1 ≤ ms) (hupper : ms ≤ millisRange.2) : ofMillis? ms = some t := by
  obtain ⟨hcount, hnanos⟩ := h
  have hseconds : ms / 1000 = t.seconds := by omega
  have hrest : (ms % 1000).toNat * 1000000 = t.nanos := by omega
  rw [ofMillis?, hseconds, hrest]
  exact if_pos (by simp [hlower, hupper])

section

variable {rest : List Char}

theorem twoDigits_padded {n : Nat} (h : n < 100) :
    twoDigits (Decimal.padded 2 n ++ rest) = .ok (n, rest) := by
  obtain ⟨htens, htensValue⟩ := Decimal.digitChar_digit (n / 10) (by omega)
  obtain ⟨hones, honesValue⟩ := Decimal.digitChar_digit (n % 10) (by omega)
  have hvalue : Decimal.spelled [(n / 10).digitChar, (n % 10).digitChar] = n := by
    simp only [Decimal.spelled, List.foldl_cons, List.foldl_nil, htensValue, honesValue]
    omega
  rw [Decimal.padded_two h]
  simp only [List.cons_append, List.nil_append, twoDigits, htens, hones, hvalue, Bool.and_self,
    if_true]

/-- Four digits are read as a century and the year in it. -/
theorem twoDigits_year {n : Nat} (h : n < 10000) :
    twoDigits (Decimal.padded 4 n ++ rest) = .ok (n / 100, Decimal.padded 2 (n % 100) ++ rest) := by
  rw [Decimal.padded_four, List.append_assoc, twoDigits_padded (by omega)]

theorem skipChar_self (c : Char) : skipChar (fun d => decide (d = c)) (c :: rest) = .ok rest :=
  if_pos (decide_eq_true rfl)

end

namespace Stamp

variable {s : Stamp} {rest : List Char}

theorem readDate_chars :
    readDate (s.dateChars ++ rest) = .ok (dayNumber s.year s.month s.day, rest) := by
  obtain ⟨hmonth, htwelve⟩ := s.monthExists
  obtain ⟨hday, hlength⟩ := s.dayExists
  have hshort := daysInMonth_le s.year s.month
  have hyear : 100 * (s.year.val / 100) + s.year.val % 100 = s.year := by omega
  have hexists : Date.exists ⟨s.year.val, s.month, s.day⟩ = true := by
    simp [Date.exists, hmonth, htwelve, hday, hlength]
  simp only [readDate, dateChars, List.append_assoc, List.cons_append,
    twoDigits_year s.year.isLt, twoDigits_padded (Nat.mod_lt s.year (by decide : 0 < 100)),
    twoDigits_padded (by omega : s.month < 100), twoDigits_padded (by omega : s.day < 100),
    skipChar_self, bind, Except.bind, hyear, hexists, if_true, toDays_eq hmonth htwelve hday]
  rfl

theorem readFraction_chars (hdigit : ∀ c, rest.head? = some c → c.isDigit = false)
    (hpoint : rest.head? ≠ some '.') :
    readFraction (s.fractionChars ++ rest) =
      .ok (Decimal.spelled s.fraction * 10 ^ (9 - s.fraction.length), rest) := by
  unfold fractionChars
  by_cases hnone : s.fraction = []
  · rw [if_pos hnone, hnone, List.nil_append]
    unfold readFraction
    split
    · exact absurd rfl hpoint
    · rfl
  · rw [if_neg hnone, List.cons_append]
    have hsome : s.fraction.isEmpty = false := List.isEmpty_eq_false_iff.2 hnone
    simp only [readFraction, Decimal.takeWhile_digits s.digits hdigit,
      Decimal.dropWhile_digits s.digits hdigit, hsome, Bool.false_eq_true, if_false,
      fractionNanos, List.take_of_length_le s.places]
    rfl

theorem readTime_chars (hdigit : ∀ c, rest.head? = some c → c.isDigit = false)
    (hpoint : rest.head? ≠ some '.') :
    readTime (s.timeChars ++ (s.fractionChars ++ rest)) = .ok ((s.secondOfDay, s.nanos), rest) := by
  have hhour := s.hour.isLt
  have hminute := s.minute.isLt
  have hsecond := s.second.isLt
  simp only [readTime, timeChars, hourMinute, List.append_assoc, List.cons_append,
    twoDigits_padded (by omega : s.hour.val < 100), twoDigits_padded (by omega : s.minute.val < 100),
    twoDigits_padded (by omega : s.second.val < 100), skipChar_self,
    readFraction_chars hdigit hpoint, bind, Except.bind, secondOfDay, nanos]
  by_cases hleap : s.second.val = 60
  · simp only [hleap, if_true, hhour, hminute]
    rfl
  · have hordinary : s.second.val < 60 := by omega
    have hmin : min s.second.val 59 = s.second.val := by omega
    simp only [hleap, if_false, hhour, hminute, hordinary, hmin]
    rfl

end Stamp

section

variable {zone : Zone} {cs : List Char}

theorem readOffsetMinutes_padded {n : Nat} (h : n < 60) :
    readOffsetMinutes (Decimal.padded 2 n) = .ok (n, []) := by
  have hdigits : twoDigits (Decimal.padded 2 n ++ []) = .ok (n, []) := twoDigits_padded (by omega)
  rw [List.append_nil] at hdigits
  simp only [readOffsetMinutes, hdigits, bind, Except.bind, h, if_true]
  rfl

theorem readOffset_written (h : zone.Written cs) : readOffset cs = .ok (zone.seconds, []) := by
  cases h with
  | zulu => rfl
  | lowercase => rfl
  | east hours minutes =>
      simp only [readOffset, hourMinute, twoDigits_padded (by omega : hours.val < 100),
        skipChar_self, readOffsetMinutes_padded minutes.isLt, bind, Except.bind]
      rfl
  | west hours minutes =>
      simp only [readOffset, hourMinute, twoDigits_padded (by omega : hours.val < 100),
        skipChar_self, readOffsetMinutes_padded minutes.isLt, bind, Except.bind]
      rfl

/-- No digit and no point stands at the front of a zone, so a fraction ends there. -/
theorem Zone.Written.head (h : zone.Written cs) :
    (∀ c, cs.head? = some c → c.isDigit = false) ∧ cs.head? ≠ some '.' := by
  cases h <;> simp

theorem Zone.seconds_lt (zone : Zone) : zone.seconds.natAbs < 86400 := by
  cases zone with
  | utc => decide
  | east hours minutes =>
      simp only [Zone.seconds]
      omega
  | west hours minutes =>
      simp only [Zone.seconds]
      omega

/-- Every character takes a byte at least. -/
theorem length_le_utf8ByteSize (text : String) : text.toList.length ≤ text.utf8ByteSize := by
  have hchars : ∀ cs : List Char, cs.length ≤ (String.ofList cs).utf8ByteSize := by
    intro cs
    induction cs with
    | nil => exact Nat.zero_le _
    | cons c rest ih =>
        have hsplit : String.ofList (c :: rest) = String.singleton c ++ String.ofList rest := by
          rw [String.singleton_eq_ofList, ← String.ofList_append]
          rfl
        have hc := c.utf8Size_pos
        rw [hsplit, String.utf8ByteSize_append, String.utf8ByteSize_singleton, List.length_cons]
        omega
  have h := hchars text.toList
  rwa [String.ofList_toList] at h

end

namespace Stamp

variable {s : Stamp} {cs : List Char}

theorem Written.length (h : s.Written cs) : minimumBytes ≤ cs.length := by
  have htwo : ∀ n < 100, (Decimal.padded 2 n).length = 2 :=
    fun n hn => by rw [Decimal.padded_two hn]; rfl
  have hyear : (Decimal.padded 4 s.year).length = 4 := by
    rw [Decimal.padded_four, List.length_append, htwo _ (by omega), htwo _ (by omega)]
  obtain ⟨-, htwelve⟩ := s.monthExists
  obtain ⟨-, hlength⟩ := s.dayExists
  have hshort := daysInMonth_le s.year s.month
  cases h
  simp only [dateChars, timeChars, hourMinute, List.length_append, List.length_cons, hyear,
    htwo s.month (by omega), htwo s.day (by omega), htwo s.hour (by omega),
    htwo s.minute (by omega), htwo s.second (by omega), minimumBytes]
  omega

theorem readChars_written (h : s.Written cs) : readChars cs = .ok s.instant := by
  obtain ⟨hseparator, hzone⟩ := h
  obtain ⟨hdigit, hpoint⟩ := hzone.head
  have hskip : ∀ (separator : Char) (rest : List Char), separator ∈ ['T', 't', ' '] →
      skipChar (fun c => c = 'T' || c = 't' || c = ' ') (separator :: rest) = .ok rest := by
    intro separator rest h
    refine if_pos ?_
    simpa [or_assoc] using h
  have hnear := s.zone.seconds_lt
  simp only [readChars, readDate_chars, hskip _ _ hseparator, readTime_chars hdigit hpoint,
    readOffset_written hzone, bind, Except.bind, List.isEmpty_nil, Bool.not_true,
    Bool.false_eq_true, if_false, Nat.not_le.2 hnear]
  rfl

/-- What was written is read back. -/
theorem read_of_written {text : String} (h : s.Written text.toList) :
    read text = .ok s.instant := by
  have hlength := Nat.le_trans h.length (length_le_utf8ByteSize text)
  rw [read, if_neg (Nat.not_lt.2 hlength)]
  exact readChars_written h

end Stamp

end RequestLog.Instant
